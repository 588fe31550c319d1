import Mathlib.Data.List.Chain
import OS90.Kernel.Vm86
import OS90.Lib.Run

/-!
# Re-entrancy of V86 calls

A run enters and leaves calls of `ScEnterV86` in any properly nested order, each from whatever
machine the kernel is in by then. One ESP0 stands for all of them, so a run remembers, for each
call that is still open, the stack pointer it was entered with and the ESP0 it replaced.

`CallEvent.Law` is what an outer call needs when an inner one has returned: ESP0 is back, and an
exception taken in the outer call's V86 code writes just below the registers that call has saved.
`ScEnterV86` never puts ESP0 back, and `ScOnExceptRetReenterCallerV86` only reads it. The law holds
of a return exactly when the entry had found ESP0 where it put it (`callRun_law_iff`).
-/

namespace OS90.Laws

open OS90.Ia32 OS90.Ia32.Cpu OS90.Kernel OS90.Run

/-- A call of `ScEnterV86` that has not returned. -/
structure OpenCall where
  /-- ESP at its first instruction. -/
  esp : DWORD
  /-- ESP0 just before. -/
  esp0 : DWORD

/-- Where a call's saved registers end, and the next exception's frame begins. -/
def OpenCall.frameTop (c : OpenCall) : DWORD := c.esp - 24#32

inductive CallEvent where
  | enter (m : Machine)
  | ret (h : HandlerPath) (m : Machine)

/-- The task state segment and the open calls, the innermost first. -/
structure Calls where
  tss : Tss
  opened : List OpenCall

/-- The machine a call returns in: the handler's, with the task state segment of the run. -/
def returned (layout : Layout) (r : Calls) (h : HandlerPath) (m : Machine) : Machine :=
  reentered layout h { m with tss := r.tss }

def callStep (layout : Layout) (r : Calls) : CallEvent → Option Calls
  | .enter m =>
    some ⟨(scEnterV86 layout { m with tss := r.tss }).tss, ⟨m.gpr .esp, r.tss.esp0⟩ :: r.opened⟩
  | .ret h m =>
    match r.opened with
    | [] => none
    | _ :: rest => some ⟨(returned layout r h m).tss, rest⟩

/-- Every exception from V86 mode, with this task state segment, is pushed just below the saved
registers of `c`. -/
def PushesBelow (tss : Tss) (c : OpenCall) : Prop :=
  ∀ (g : Gate) (e : DWORD) (m : Machine), m.tss = tss → vm m.eflags = true →
    (m.deliver g (some e)).gpr .esp = c.frameTop - 40#32 ∧
      Mem.Within (c.frameTop - 40#32) 40 m.mem (m.deliver g (some e)).mem

def CallEvent.Law (layout : Layout) (r : Calls) : CallEvent → Prop
  | .enter _ => True
  | .ret h m => ∀ c rest, r.opened = c :: rest →
    (returned layout r h m).tss.esp0 = c.esp0 ∧
      ∀ outer ∈ rest.head?, PushesBelow (returned layout r h m).tss outer

/-- The call that returns had been entered with ESP0 where it puts it: its own frame would begin
where the frame of the code that called it began. -/
def CallEvent.Balanced (r : Calls) : CallEvent → Prop
  | .enter _ => True
  | .ret _ _ => ∀ c rest, r.opened = c :: rest → c.frameTop = c.esp0

/-- ESP0 is the innermost open call's, and each open call replaced the one outside it. -/
def Calls.Inv (r : Calls) : Prop :=
  (∀ c ∈ r.opened.head?, r.tss.esp0 = c.frameTop) ∧
    List.IsChain (fun c outer => c.esp0 = outer.frameTop) r.opened

/-- An exception from V86 mode is pushed below ESP0, and so below the frame of the call, if ESP0 is
at the frame. -/
theorem pushesBelow_of_esp0 {tss : Tss} {c : OpenCall} (h : tss.esp0 = c.frameTop) :
    PushesBelow tss c := by
  intro g e m htss hvm
  rw [← h, ← htss]
  exact ⟨deliver_vm_esp g hvm e, deliver_within g hvm e⟩

/-- A return keeps the law exactly when the call it ends was balanced; the entry of a call keeps it
always. -/
theorem CallEvent.law_iff {layout : Layout} {r : Calls} (hinv : r.Inv) (e : CallEvent) :
    CallEvent.Law layout r e ↔ CallEvent.Balanced r e := by
  cases e with
  | enter m => exact Iff.rfl
  | ret h m =>
    unfold CallEvent.Law CallEvent.Balanced
    refine forall_congr' fun c => forall_congr' fun rest => forall_congr' fun hopen => ?_
    obtain ⟨htop, hchain⟩ := hinv
    have htss : (returned layout r h m).tss = r.tss := reentered_tss layout h _
    have hesp0 : r.tss.esp0 = c.frameTop := htop c (by rw [hopen]; rfl)
    rw [htss, hesp0]
    refine ⟨fun hlaw => hlaw.1, fun hbalanced => ⟨hbalanced, ?_⟩⟩
    intro outer houter
    cases rest with
    | nil => cases houter
    | cons next rest =>
      cases houter
      rw [hopen] at hchain
      have hnext : c.esp0 = outer.frameTop := (List.isChain_cons_cons.mp hchain).1
      exact pushesBelow_of_esp0 (hesp0.trans (hbalanced.trans hnext))

/-- Entering moves ESP0 below the new call, and a return that keeps the law moves it back. -/
theorem callStep_inv {layout : Layout} {r r' : Calls} {e : CallEvent} (hinv : r.Inv)
    (hlaw : CallEvent.Law layout r e) (hstep : callStep layout r e = some r') : r'.Inv := by
  obtain ⟨htop, hchain⟩ := hinv
  cases e with
  | enter m =>
    cases hstep
    refine ⟨?_, ?_⟩
    · intro c hc
      cases hc
      show (scEnterV86 layout _).tss.esp0 = _
      rw [scEnterV86_tss, enterSave_esp0]
      rfl
    · cases hopen : r.opened with
      | nil => exact .singleton _
      | cons outer rest =>
        rw [hopen] at hchain htop
        exact List.isChain_cons_cons.mpr ⟨htop outer rfl, hchain⟩
  | ret h m =>
    rw [callStep] at hstep
    cases hopen : r.opened with
    | nil =>
      rw [hopen] at hstep
      cases hstep
    | cons c rest =>
      rw [hopen] at hstep
      cases hstep
      rw [hopen] at hchain
      have hback := (hlaw c rest hopen).1
      refine ⟨?_, hchain.tail⟩
      intro outer houter
      cases rest with
      | nil => cases houter
      | cons next rest =>
        cases houter
        exact hback.trans (List.isChain_cons_cons.mp hchain).1

/-- For every run of entries and returns, of any depth and from any machines: each return puts ESP0
back and keeps the outer call's registers safe exactly when each return is of a balanced call. The
condition compares ESP0 at the entry of the call with its stack pointer. That the processor comes to
a return is not established, and is taken from the event. -/
theorem callRun_law_iff (layout : Layout) (tss : Tss) (es : List CallEvent) :
    EachStep (callStep layout) (CallEvent.Law layout) ⟨tss, []⟩ es ↔
      EachStep (callStep layout) CallEvent.Balanced ⟨tss, []⟩ es :=
  EachStep.congr Calls.Inv (fun _ _ _ hinv hlaw hstep => callStep_inv hinv hlaw hstep)
    (fun _ e hinv => CallEvent.law_iff hinv e) ⟨(fun _ h => by cases h), .nil⟩ es

/-- A call entered from the handler of another, a page further down. -/
def nestedMachine : Machine := Machine.idle.set .esp 0xC007F000

/-- An inner call returns, and ESP0 stays below its dead frame. -/
theorem callRun_nested :
    ¬ EachStep (callStep Layout.linked) (CallEvent.Law Layout.linked) ⟨Machine.idle.tss, []⟩
        [.enter Machine.idle, .enter nestedMachine, .ret .direct nestedMachine] := by
  intro hrun
  obtain ⟨_, houter⟩ := hrun
  obtain ⟨_, hinner⟩ := houter _ rfl
  obtain ⟨hlaw, _⟩ := hinner _ rfl
  have hesp0 := (hlaw _ _ rfl).1
  rw [returned, reentered_tss, scEnterV86_tss, scEnterV86_tss, enterSave_esp0,
    enterSave_esp0] at hesp0
  exact absurd hesp0 (by decide)

end OS90.Laws
