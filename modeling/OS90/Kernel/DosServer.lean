import OS90.Kernel.Type
import OS90.Lib.Loop

/-!
# What DOS programs come to the kernel through

Two tables of handlers, and the server that puts one handler in both.

`v86_capture_chain` of `V86.c`, the links drivers add to it, `InitV86`, `ScHookDosTrap`, and
`ScOnErrorDetatchLinks`, which takes all links off again. A link is an object of the driver's, known
by its address, and the heads are an array of the kernel's, one for each vector of real mode; `next`
never points to a head. A vector outside the array is `none`.

`Farcall.c`. A driver registers a handler and is given the linear address DOS programs are to call,
an address in unmapped BIOS ROM space; the page fault there is meant to bring the call to the
handler. `HandleFcallAfterPF` has an empty body, so the table is all there is.

`KeInit_DOS_Server` of `DOS.c`, which registers one handler twice: behind INT 2Fh, with a link of
its own, and in the far-call table. The address answered is kept for the DOS programs that are to
switch to protected mode there.
-/

namespace OS90.Kernel

open OS90.Update

/-! ## Hooked traps -/

abbrev V86_HANDLER := PTR

/-- A pointer to a link that is not null. -/
abbrev LinkPtr := { p : PTR // p ≠ 0 }

/-- `V86_CHAIN_LINK`. A null `next` is `none`. -/
structure V86_CHAIN_LINK where
  handler : V86_HANDLER
  next : Option LinkPtr
deriving DecidableEq

def CAPTURE_DOS_FUNCTIONS : Nat := 256

/-- The array of heads, and the drivers' links in memory. -/
structure Chains where
  head : BYTE → V86_CHAIN_LINK
  link : LinkPtr → V86_CHAIN_LINK

/-- All of it zero, as when the kernel starts. -/
def Chains.zero : Chains := ⟨fun _ => ⟨0, none⟩, fun _ => ⟨0, none⟩⟩

/-- `InitV86`. `captStub` is the address of `V86CaptStub`. -/
def initV86 (captStub : V86_HANDLER) (c : Chains) : Chains :=
  (List.range CAPTURE_DOS_FUNCTIONS).foldl
    (fun c i => { c with head := Function.update c.head (BitVec.ofNat 8 i) ⟨captStub, none⟩ }) c

/-- `ScHookDosTrap`. The link before the new one is always the head. -/
def scHookDosTrap (vector : VINT) (new : LinkPtr) (hnd : V86_HANDLER) (c : Chains) :
    Option Chains :=
  if vector.toNat < CAPTURE_DOS_FUNCTIONS then
    let prev := vector.setWidth 8
    let c := { c with head := Function.update c.head prev { c.head prev with next := some new } }
    let c := { c with link := Function.update c.link new { c.link new with handler := hnd } }
    some { c with link := Function.update c.link new { c.link new with next := none } }
  else none

/-- `ScOnErrorDetatchLinks` sets every byte of the array to zero. -/
def scOnErrorDetatchLinks (c : Chains) : Chains := { c with head := fun _ => ⟨0, none⟩ }

/-- The links found by following `next` from a pointer, until it is null. -/
def Follows (c : Chains) : Option LinkPtr → List LinkPtr → Prop
  | none, [] => True
  | some p, q :: l => p = q ∧ Follows c (c.link p).next l
  | none, _ :: _ => False
  | some _, [] => False

/-! ## What the functions do -/

/-- After the initialisation every head is a stub with nothing behind it, whatever the chains
were. -/
theorem initV86_head (captStub : V86_HANDLER) (c : Chains) (v : BYTE) :
    (initV86 captStub c).head v = ⟨captStub, none⟩ := by
  have hfill : ∀ (l : List Nat) (c : Chains),
      (l.foldl (fun c i => { c with
        head := Function.update c.head (BitVec.ofNat 8 i) ⟨captStub, none⟩ }) c).head =
      fill (BitVec.ofNat 8) (fun _ => ⟨captStub, none⟩) l c.head := by
    intro l
    induction l with
    | nil => exact fun _ => rfl
    | cons i l ih => exact fun c => ih _
  have hindex : BitVec.ofNat 8 v.toNat = v := by
    rw [BitVec.ofNat_toNat, BitVec.setWidth_eq]
  unfold initV86
  rw [hfill]
  exact fill_of_agree _ _ ⟨v.toNat, List.mem_range.mpr v.isLt, hindex⟩ (fun _ _ _ => rfl) c.head

/-- The links after a hook that is in range: the head has the new link behind it, and what it had
there is lost. -/
theorem scHookDosTrap_run {vector : VINT} (hvector : vector.toNat < CAPTURE_DOS_FUNCTIONS)
    (new : LinkPtr) (hnd : V86_HANDLER) (c : Chains) :
    scHookDosTrap vector new hnd c = some
      { head := Function.update c.head (vector.setWidth 8)
          { c.head (vector.setWidth 8) with next := some new }
        link := Function.update c.link new ⟨hnd, none⟩ } := by
  unfold scHookDosTrap
  rw [if_pos hvector]
  simp

/-! ## Far calls -/

section Farcall

abbrev DOS_FCALL_HANDLER := PTR

def MAX_SUPPORTED_FAR_CALLS : Nat := 16

def FAR_CALL_BASE_SEG : DWORD := 0xF001

def FAR_CALL_BASE_ADDR : DWORD := 0xF001#32 * 16#32

def FAR_CALL_UPPER_BOUND_OFFSET : DWORD := BitVec.ofNat 32 (MAX_SUPPORTED_FAR_CALLS - 1)

/-- `hnd_inx` and `fc_handlers`. -/
structure FarCalls where
  hndInx : WORD
  fcHandlers : Vector DOS_FCALL_HANDLER MAX_SUPPORTED_FAR_CALLS
deriving DecidableEq

/-- The static initialisers. -/
def FarCalls.zero : FarCalls := ⟨0, Vector.replicate _ 0⟩

/-- `ScInsertFarCallHandler`: the answer and the state after it, or `none` where the store would
fall outside `fc_handlers`. The address answered is computed after the increment. -/
def scInsertFarCallHandler (fcallHandler : DOS_FCALL_HANDLER) : StateT FarCalls Option DWORD := do
  if (← get).hndInx.toNat + 1 = MAX_SUPPORTED_FAR_CALLS then
    return -1#32
  let s ← get
  if h : s.hndInx.toNat < MAX_SUPPORTED_FAR_CALLS then
    set { s with fcHandlers := s.fcHandlers.set s.hndInx.toNat fcallHandler }
  else failure
  modify fun s => { s with hndInx := s.hndInx + 1#16 }
  return FAR_CALL_BASE_SEG * 16#32 + (← get).hndInx.setWidth 32

/-! ## What a call does -/

variable (s : FarCalls) (fcallHandler : DOS_FCALL_HANDLER)

/-- The last slot is never given out: a call that would take it is refused. -/
theorem scInsertFarCallHandler_run_full (h : s.hndInx.toNat = 15) :
    (scInsertFarCallHandler fcallHandler).run s = some (-1#32, s) := by
  simp [scInsertFarCallHandler, MAX_SUPPORTED_FAR_CALLS, h]

/-- A far call registered while the table has room. The address that is answered is one past that of
the slot which is filled. -/
theorem scInsertFarCallHandler_run (h : s.hndInx.toNat < 15) :
    (scInsertFarCallHandler fcallHandler).run s =
      some (FAR_CALL_BASE_ADDR + BitVec.ofNat 32 (s.hndInx.toNat + 1),
        { hndInx := s.hndInx + 1#16
          fcHandlers := s.fcHandlers.set s.hndInx.toNat fcallHandler
            (show _ < MAX_SUPPORTED_FAR_CALLS by unfold MAX_SUPPORTED_FAR_CALLS; omega) }) := by
  have hroom : s.hndInx.toNat + 1 ≠ MAX_SUPPORTED_FAR_CALLS := by
    unfold MAX_SUPPORTED_FAR_CALLS
    omega
  have hin : s.hndInx.toNat < MAX_SUPPORTED_FAR_CALLS := by
    unfold MAX_SUPPORTED_FAR_CALLS
    omega
  have hanswer : FAR_CALL_BASE_SEG * 16#32 + (s.hndInx + 1#16).setWidth 32 =
      FAR_CALL_BASE_ADDR + BitVec.ofNat 32 (s.hndInx.toNat + 1) := by
    refine congrArg (FAR_CALL_BASE_ADDR + ·) (BitVec.eq_of_toNat_eq ?_)
    simp only [BitVec.toNat_setWidth, BitVec.toNat_add, BitVec.toNat_ofNat]
    omega
  simp [scInsertFarCallHandler, hroom, hin, hanswer]

end Farcall

/-! ## The server -/

/-- `dpmi_entry_farcall`, with the two tables. -/
structure DosServer where
  chains : Chains
  farCalls : FarCalls
  dpmiEntryFarcall : DWORD

/-- `KeInit_DOS_Server`. The addresses are those of its link and of `DpmiRealModeApiHandler`. -/
def keInit_DOS_Server (lnk : LinkPtr) (dpmiRealModeApiHandler : PTR) (s : DosServer) :
    Option DosServer := do
  let chains ← scHookDosTrap 0x2F lnk dpmiRealModeApiHandler s.chains
  let (dpmiEntryFarcall, farCalls) ← (scInsertFarCallHandler dpmiRealModeApiHandler).run s.farCalls
  return { chains, farCalls, dpmiEntryFarcall }

end OS90.Kernel
