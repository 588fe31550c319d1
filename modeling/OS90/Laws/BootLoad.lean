import OS90.Boot.LoadKernel
import OS90.Boot.PageSetup

/-!
# The boot loader's copy of the kernel and its page tables

Two laws of the loader: of the pages it moves, and of the addresses it maps.

`LoadLaw` is that the loader leaves its loop with every page of the image moved once, each to its
own place. The loop counts down before it looks at the count, so that it runs once less than there
are pages (`loadKernel_moves`): the last page of an image is never read, and of an image of one
page nothing is.

`WindowLaw` is what the tables are for: the first megabyte is mapped to itself for everyone, and a
megabyte from C0000000h to the kernel for the supervisor. It holds for every page-aligned kernel
that fits (`windowLaw`).

`VacantLaw` is that they map nothing else. Nothing but the mapped entries is ever written, and CR3
keeps what it had above the directory's own bit, so that it holds exactly when all of that was
vacant before (`vacantLaw_iff`).
-/

namespace OS90.Laws

open OS90.Ia32 OS90.Ia32.Cpu OS90.Kernel OS90.Boot

/-! ## The copy -/

section Laws

variable (d : Services) (l : Labels) (e : LoadEntry l)

/-- Page `k` of the file. -/
def filePage (k : Nat) : List BYTE :=
  (List.range 4096).map fun j => e.c.env.file.data (4096 * k + j)

/-- Where it belongs. -/
def pagePlace (k : Nat) : DWORD := (l.args e.c).desoff + BitVec.ofNat 32 (4096 * k)

/-- Every page is moved once, to its place, in any order. -/
def Complete (moves : List Move) : Prop :=
  (moves.map fun v => (v.args.desoff, v.bytes)).Perm
    ((List.range e.n).map fun k => (pagePlace l e k, filePage l e k))

/-- The law of `LoadKernel`. -/
def LoadLaw : Prop :=
  ∃ rounds c, loadKernel d l rounds e.c = some (.loaded c) ∧ Complete l e c.env.moves

end Laws

section Moves

variable {d : Services} {l : Labels}

/-- The loader leaves its loop with all pages but the last in their places, the pages and places
being those of the law. -/
theorem loadKernel_moves (hd : d.Succeed) (e : LoadEntry l) :
    ∃ c, (∃ rounds, loadKernel d l rounds e.c = some (.loaded c)) ∧
      c.env.moves.map (fun v => (v.args.desoff, v.bytes)) =
        (List.range (e.n - 1)).map fun k => (pagePlace l e k, filePage l e k) := by
  obtain ⟨c₀, hrun, hloading, hdesoff, hdata, hsize⟩ := loadKernel_loop hd e
  obtain ⟨c, ⟨rounds, hleaves⟩, hmoves⟩ :=
    loadLoop_leaves hd hloading e.pos e.lt (hsize.trans e.size)
  refine ⟨c, ⟨rounds, (hrun rounds).trans hleaves⟩, ?_⟩
  rw [hmoves, List.map_map]
  have hpage : ∀ k, ((page l c₀ k).args.desoff, (page l c₀ k).bytes) =
      (pagePlace l e k, filePage l e k) := by
    intro k
    unfold page pagePlace filePage
    rw [hdesoff, hdata]
  exact List.map_congr_left fun k _ => hpage k

/-- Whatever the number of rounds, the loader leaves with these moves or not at all. -/
theorem loadKernel_unique (hd : d.Succeed) (e : LoadEntry l) {c c' : Loader} {rounds rounds' : Nat}
    (h : loadKernel d l rounds e.c = some (.loaded c))
    (h' : loadKernel d l rounds' e.c = some (.loaded c')) : c = c' := by
  obtain ⟨c₀, hrun, _⟩ := loadKernel_loop hd e
  rw [hrun] at h h'
  have hsame := Loop.Leaves.unique ⟨rounds, h⟩ ⟨rounds', h'⟩
  cases hsame
  rfl

/-- No image is loaded completely. The number of moves decides it: there are `n - 1` of them for `n`
pages. -/
theorem not_loadLaw_of_succeed (hd : d.Succeed) (e : LoadEntry l) : ¬ LoadLaw d l e := by
  rintro ⟨rounds, c, hc, hcomplete⟩
  obtain ⟨c', ⟨rounds', hc'⟩, hmoves⟩ := loadKernel_moves hd e
  obtain rfl := loadKernel_unique hd e hc hc'
  have hlength := hcomplete.length_eq
  have hpos := e.pos
  rw [hmoves, List.length_map, List.length_map, List.length_range, List.length_range] at hlength
  omega

end Moves

/-- A DOS and a driver that answer every call. -/
def answering : Services where
  openError _ := none
  readError _ := none
  moveError _ := none
  bx _ := 0

/-- They are services that succeed, and so the laws that ask for that speak of them. -/
theorem answering_succeed : answering.Succeed := ⟨fun _ => rfl, fun _ => rfl, fun _ => rfl⟩

/-- An image of two pages, that begins at a megabyte. -/
def twoPages : LoadEntry boot386 where
  c :=
    { gpr := fun r => if r = .esp then 0xFFFE else 0
      seg := fun _ => 0x1000
      eip := 0
      eflags := 0x202
      mem := fun a => if a = 0x10518 then 0x10 else 0
      tss := ⟨0, 0, 0⟩
      env := ⟨⟨5, 8192, fun i => if i < 4096 then 0x90 else 0xF4, 0⟩, [], 0⟩ }
  placed := ⟨rfl, by decide, by decide⟩
  n := 2
  pos := Nat.zero_lt_two
  lt := by decide
  size := rfl
  len := by decide
  srchan := by decide
  moves := rfl

/-- Of two pages the second is never read. -/
theorem bootLoad_twoPages : ¬ LoadLaw answering boot386 twoPages :=
  not_loadLaw_of_succeed answering_succeed twoPages

/-- For every image of 1 to 65535 pages, every content of it, every place for it and every state of
the machine, with every call answered: the loader ends, has moved exactly the pages before the last
one, each once and to its place, and so is not complete. -/
theorem not_loadLaw {d : Services} (hd : d.Succeed) {l : Labels} (e : LoadEntry l) :
    (∃ rounds c, loadKernel d l rounds e.c = some (.loaded c) ∧
      c.env.moves.map (fun v => (v.args.desoff, v.bytes)) =
        (List.range (e.n - 1)).map fun k => (pagePlace l e k, filePage l e k)) ∧
      ¬ LoadLaw d l e := by
  obtain ⟨c, ⟨rounds, hc⟩, hmoves⟩ := loadKernel_moves hd e
  exact ⟨⟨rounds, c, hc, hmoves⟩, not_loadLaw_of_succeed hd e⟩

/-- Of an image of two pages, the first is moved and the second is not. -/
theorem not_loadLaw_twoPages :
    (∃ rounds c, loadKernel answering boot386 rounds twoPages.c = some (.loaded c) ∧
      c.env.moves.map (fun v => (v.args.desoff, v.bytes)) =
        [(pagePlace boot386 twoPages 0, filePage boot386 twoPages 0)]) ∧
      ¬ LoadLaw answering boot386 twoPages :=
  not_loadLaw answering_succeed twoPages

/-! ## The page tables -/

section Laws

variable {l : Labels} (e : PageEntry l)

/-- The two megabytes that are mapped. -/
def WindowLaw : Prop :=
  ∃ rounds c, pageSetup l rounds e.c = some c ∧
    (∀ a : DWORD, a.toNat < 2 ^ 20 → c.mem.translate hma a = some ⟨a, true, true⟩) ∧
      ∀ o : DWORD, o.toNat < 2 ^ 20 →
        c.mem.translate hma (0xC0000000#32 + o) = some ⟨e.kernelAddr + o, true, false⟩

/-- An address in neither of them. -/
def Outside (la : DWORD) : Prop :=
  2 ^ 20 ≤ la.toNat ∧ (la.toNat < 0xC0000000 ∨ 0xC0000000 + 2 ^ 20 ≤ la.toNat)

/-- Nothing else is mapped. -/
def VacantLaw : Prop :=
  ∃ rounds c, pageSetup l rounds e.c = some c ∧ frame c.env.cr3 = hma ∧
    ∀ la, Outside la → c.mem.translate c.env.cr3 la = none

/-- CR3 and the memory under the tables, as they were found, let nothing else be mapped. -/
structure Vacant : Prop where
  cr3 : e.c.env.cr3 &&& 0xFFEFF000#32 = 0#32
  low : ∀ j, 256 ≤ j → j < 1024 → present (e.found.entry (hma + 0x1000#32) j) = false
  high : ∀ j, 256 ≤ j → j < 1024 → present (e.found.entry (hma + 0x2000#32) j) = false
  others : ∀ i < 1024, i ≠ 0 → i ≠ 768 → present (e.found.entry hma i) = true →
    (∀ k < 3, frame (e.found.entry hma i) ≠ hma + BitVec.ofNat 32 (4096 * k)) ∧
      ∀ j < 1024, present (e.found.entry (frame (e.found.entry hma i)) j) = false

end Laws

section Windows

variable {l : Labels} {e : PageEntry l} {c : Loader}

/-- Below a megabyte an address is translated to itself, for the user too and with the right to
write. -/
theorem translate_low (h : Tables e c) {a : DWORD} (ha : a.toNat < 2 ^ 20) :
    c.mem.translate hma a = some ⟨a, true, true⟩ := by
  have hdir : dirIndex a = 0 := by
    unfold dirIndex
    omega
  have htable : tableIndex a = a.toNat / 0x1000 := by
    unfold tableIndex
    omega
  obtain ⟨i, hi⟩ : ∃ i, i = a.toNat / 0x1000 := ⟨_, rfl⟩
  have hpage : (BitVec.ofNat 32 (4096 * i)).toNat % 4096 = 0 := by
    rw [BitVec.toNat_ofNat]
    omega
  have hd : c.mem.entry (frame hma) (dirIndex a) = 0x101007#32 := by
    rw [frame_hma, hdir, h.directory (by decide), e.dword_zero]
  have hp : c.mem.entry (frame 0x101007#32) (tableIndex a) = BitVec.ofNat 32 (4096 * i) + 7#32 := by
    have htab : frame 0x101007#32 = hma + BitVec.ofNat 32 (4096 * 1) := by decide
    rw [htab, htable, ← hi, h.entry (by decide) (by omega)]
    unfold PageEntry.dword
    rw [if_neg (by omega), if_neg (by omega), if_pos (by omega), Nat.mul_one,
      Nat.add_sub_cancel_left, BitVec.ofNat_add]
  have haddress : BitVec.ofNat 32 (4096 * i) + BitVec.ofNat 32 (a.toNat % 0x1000) = a := by
    apply BitVec.eq_of_toNat_eq
    rw [BitVec.toNat_add, BitVec.toNat_ofNat, BitVec.toNat_ofNat]
    omega
  rw [Mem.translate_page hd hp hpage (by decide) (by decide) (by decide), haddress]
  rfl

/-- The megabyte at 3 GiB is translated to the block. The premises are that `KernelAddr` is aligned,
which the allocation sees to, and that the block does not go round the address space. -/
theorem translate_high (h : Tables e c) (haligned : e.kernelAddr.toNat % 4096 = 0)
    (hfit : e.kernelAddr.toNat + 2 ^ 20 ≤ 2 ^ 32) {o : DWORD} (ho : o.toNat < 2 ^ 20) :
    c.mem.translate hma (0xC0000000#32 + o) = some ⟨e.kernelAddr + o, true, false⟩ := by
  have hla : (0xC0000000#32 + o).toNat = 0xC0000000 + o.toNat := by
    rw [BitVec.toNat_add, BitVec.toNat_ofNat]
    omega
  have hdir : dirIndex (0xC0000000#32 + o) = 768 := by
    unfold dirIndex
    rw [hla]
    omega
  have htable : tableIndex (0xC0000000#32 + o) = o.toNat / 0x1000 := by
    unfold tableIndex
    rw [hla]
    omega
  obtain ⟨i, hi⟩ : ∃ i, i = o.toNat / 0x1000 := ⟨_, rfl⟩
  have hsum : (e.kernelAddr + BitVec.ofNat 32 (4096 * i)).toNat =
      e.kernelAddr.toNat + 4096 * i := by
    rw [BitVec.toNat_add, BitVec.toNat_ofNat]
    omega
  have hd : c.mem.entry (frame hma) (dirIndex (0xC0000000#32 + o)) = 0x102003#32 := by
    rw [frame_hma, hdir, h.directory (by decide), e.dword_last]
  have hp : c.mem.entry (frame 0x102003#32) (tableIndex (0xC0000000#32 + o)) =
      e.kernelAddr + BitVec.ofNat 32 (4096 * i) + 3#32 := by
    have htab : frame 0x102003#32 = hma + BitVec.ofNat 32 (4096 * 2) := by decide
    rw [htab, htable, ← hi, h.entry (by decide) (by omega)]
    unfold PageEntry.dword
    rw [if_neg (by omega), if_neg (by omega), if_neg (by omega), if_pos (by omega),
      Nat.add_sub_cancel_left, frame_eq_self haligned, BitVec.add_assoc, BitVec.add_comm 3#32,
      ← BitVec.add_assoc]
  have haddress : e.kernelAddr + BitVec.ofNat 32 (4096 * i) +
      BitVec.ofNat 32 ((0xC0000000#32 + o).toNat % 0x1000) = e.kernelAddr + o := by
    apply BitVec.eq_of_toNat_eq
    rw [BitVec.toNat_add, hsum, hla, BitVec.toNat_ofNat, BitVec.toNat_add]
    omega
  rw [Mem.translate_page hd hp (by omega) (by decide) (by decide) (by decide), haddress]
  rfl

/-- For every page-aligned kernel address with a megabyte above it, every content of the high memory
area and every state of the loader: the first megabyte is mapped to itself, writable and for the
user, and the megabyte from C0000000h to the kernel, writable and for the supervisor. Alignment is
what makes an entry the address of a page. Nothing is said of addresses outside both. -/
theorem windowLaw (e : PageEntry l) (haligned : e.kernelAddr.toNat % 4096 = 0)
    (hfit : e.kernelAddr.toNat + 2 ^ 20 ≤ 2 ^ 32) : WindowLaw e := by
  obtain ⟨c, ⟨rounds, hc⟩, htables⟩ := pageSetup_run e
  exact ⟨rounds, c, hc, fun a ha => translate_low htables ha,
    fun o ho => translate_high htables haligned hfit ho⟩

end Windows

/-! ## Everything else -/

section Vacant

variable {l : Labels} {e : PageEntry l} {c : Loader}

/-- A place in the tables that is not in a window. -/
def Elsewhere (i j : Nat) : Prop := ¬ ((i = 0 ∨ i = 768) ∧ j < 256)

/-- Being outside the two windows in terms of the places in the two levels. -/
theorem outside_iff (la : DWORD) : Outside la ↔ Elsewhere (dirIndex la) (tableIndex la) := by
  have hlt := la.isLt
  unfold Outside Elsewhere dirIndex tableIndex
  omega

/-- CR3 comes to hold the address of the directory if and only if the bits that are not cleared were
zero. -/
theorem frame_cr3_iff (cr3 : DWORD) :
    frame (cr3 &&& ~~~0xFFF#32 ||| 0x100000#32) = hma ↔ cr3 &&& 0xFFEFF000#32 = 0#32 := by
  have hbit : ∀ i < 32, ∀ b : Bool,
      ((b && (~~~0xFFF#32).getLsbD i || (0x100000#32).getLsbD i) && (0xFFFFF000#32).getLsbD i) =
        (b && (0xFFEFF000#32).getLsbD i || hma.getLsbD i) := by decide
  have hframe : frame (cr3 &&& ~~~0xFFF#32 ||| 0x100000#32) = cr3 &&& 0xFFEFF000#32 ||| hma := by
    apply BitVec.eq_of_getLsbD_eq
    intro i hi
    unfold frame
    rw [BitVec.getLsbD_and, BitVec.getLsbD_or, BitVec.getLsbD_and, BitVec.getLsbD_or,
      BitVec.getLsbD_and]
    exact hbit i hi _
  have hdisjoint : hma &&& 0xFFEFF000#32 = 0#32 := by decide
  rw [hframe]
  constructor
  · intro h
    have hand : (cr3 &&& 0xFFEFF000#32 ||| hma) &&& 0xFFEFF000#32 = hma &&& 0xFFEFF000#32 :=
      congrArg (· &&& 0xFFEFF000#32) h
    rw [BitVec.and_or_distrib_right, hdisjoint, BitVec.or_zero, BitVec.and_assoc,
      BitVec.and_self] at hand
    exact hand
  · intro h
    rw [h, BitVec.zero_or]

/-- No present entry elsewhere, over the tables. -/
def NoneElsewhere (m : Mem) : Prop :=
  ∀ i < 1024, ∀ j < 1024, Elsewhere i j → present (m.entry hma i) = true →
    present (m.entry (frame (m.entry hma i)) j) = false

/-- The law of addresses, place by place in the two levels. -/
theorem translate_none_iff (hcr3 : frame c.env.cr3 = hma) :
    (∀ la, Outside la → c.mem.translate c.env.cr3 la = none) ↔
      NoneElsewhere c.mem := by
  unfold NoneElsewhere
  rw [← Mem.forall_linear fun i j => Elsewhere i j → present (c.mem.entry hma i) = true →
    present (c.mem.entry (frame (c.mem.entry hma i)) j) = false]
  refine forall_congr' fun la => ?_
  rw [outside_iff, Mem.translate_eq_none_iff, hcr3]

/-- Only the first 256 entries of a table are filled. -/
theorem elsewhere_of_ge {i j : Nat} (hj : 256 ≤ j) : Elsewhere i j := by
  unfold Elsewhere
  omega

/-- Only two entries of the directory are set. -/
theorem elsewhere_of_ne {i : Nat} (hzero : i ≠ 0) (hlast : i ≠ 768) (j : Nat) : Elsewhere i j := by
  unfold Elsewhere
  omega

/-- Under one of those two entries, what is elsewhere is past the filled ones. -/
theorem Elsewhere.ge {i j : Nat} (h : Elsewhere i j) (hi : i = 0 ∨ i = 768) : 256 ≤ j := by
  unfold Elsewhere at h
  omega

/-- If nothing is present elsewhere now, nothing was before: the entries the code leaves are those
that were found. -/
theorem vacant_of_noneElsewhere (h : Tables e c) (hcr3 : e.c.env.cr3 &&& 0xFFEFF000#32 = 0#32)
    (hnone : NoneElsewhere c.mem) : Vacant e := by
  obtain ⟨hlow, hhigh⟩ := h.frame_windows
  obtain ⟨hzeroPresent, hlastPresent⟩ := h.windows_present
  refine ⟨hcr3, fun j hj hj' => ?_, fun j hj hj' => ?_, fun i hi hzero hlast hpresent => ?_⟩
  · have hvacant := hnone 0 (by decide) j hj' (elsewhere_of_ge hj) hzeroPresent
    rw [hlow, h.table_rest (.inl rfl) hj hj'] at hvacant
    exact hvacant
  · have hvacant := hnone 768 (by decide) j hj' (elsewhere_of_ge hj) hlastPresent
    rw [hhigh, h.table_rest (.inr rfl) hj hj'] at hvacant
    exact hvacant
  · rw [← h.directory_rest hi hzero hlast] at hpresent ⊢
    have hvacant := fun j hj => hnone i hi j hj (elsewhere_of_ne hzero hlast j) hpresent
    have hother : ∀ k < 3, frame (c.mem.entry hma i) ≠ hma + BitVec.ofNat 32 (4096 * k) := by
      intro k hk hsame
      have hfirst := hvacant 0 (by decide)
      rw [hsame, h.first_present hk] at hfirst
      cases hfirst
    refine ⟨hother, fun j hj => ?_⟩
    rw [← h.other hother hj]
    exact hvacant j hj

/-- And if nothing was, nothing is. -/
theorem noneElsewhere_of_vacant (h : Tables e c) (hvacant : Vacant e) : NoneElsewhere c.mem := by
  obtain ⟨hlow, hhigh⟩ := h.frame_windows
  intro i hi j hj helse hpresent
  by_cases hzero : i = 0
  · have hj' := helse.ge (.inl hzero)
    rw [hzero, hlow, h.table_rest (.inl rfl) hj' hj]
    exact hvacant.low j hj' hj
  by_cases hlast : i = 768
  · have hj' := helse.ge (.inr hlast)
    rw [hlast, hhigh, h.table_rest (.inr rfl) hj' hj]
    exact hvacant.high j hj' hj
  rw [h.directory_rest hi hzero hlast] at hpresent ⊢
  obtain ⟨hother, hnone⟩ := hvacant.others i hi hzero hlast hpresent
  rw [h.other hother hj]
  exact hnone j hj

/-- CR3 ends up at the directory by its own bits, whatever the tables are. -/
theorem frame_tables_iff (h : Tables e c) :
    frame c.env.cr3 = hma ↔ e.c.env.cr3 &&& 0xFFEFF000#32 = 0#32 := by
  rw [h.cr3]
  exact frame_cr3_iff _

/-- If every address outside the windows faults, then every entry that the code leaves was not
present before. An address for each entry shows it. -/
theorem vacant_of_vacantLaw (h : VacantLaw e) : Vacant e := by
  obtain ⟨rounds, c, hc, hcr3, hnone⟩ := h
  obtain ⟨c', ⟨rounds', hc'⟩, htables⟩ := pageSetup_run e
  obtain rfl := pageSetup_unique hc hc'
  exact vacant_of_noneElsewhere htables ((frame_tables_iff htables).mp hcr3)
    ((translate_none_iff hcr3).mp hnone)

end Vacant

/-! ## A program in memory -/

/-- The byte of `IDMap` at an offset. -/
def idMapByte (j : Nat) : BYTE := (BitVec.ofNat 32 (4096 * (j / 4) + 7)).extractLsb' (8 * (j % 4)) 8

/-- The assembled program at segment 1000h, its kernel at 110000h, and a dword left in the high
memory area by someone else. -/
def assembled : Mem :=
  Mem.splice (Mem.write32 (Mem.write32 (fun _ => 0) 0x101400#32 1#32) 0x104EF#32 0x110000#32)
    (0x10000#32 + BitVec.ofNat 32 0x527) 1024 idMapByte

theorem assembled_idMap {n : Nat} (hn : n < 256) :
    assembled.read32 (0x10000#32 + BitVec.ofNat 32 (0x527 + 4 * n)) =
      BitVec.ofNat 32 (4096 * n + 7) := by
  have hbyte : ∀ i < 4, assembled.byte 0x10000#32 (0x527 + 4 * n + i) =
      (BitVec.ofNat 32 (4096 * n + 7)).extractLsb' (8 * i) 8 := by
    intro i hi
    have hplace : 0x527 + 4 * n + i - 0x527 = 4 * n + i := by omega
    have hdiv : (4 * n + i) / 4 = n := by omega
    have hmod : (4 * n + i) % 4 = i := by omega
    unfold assembled
    rw [Mem.byte_splice (by decide) (by decide) (by omega), if_pos (by omega), hplace]
    unfold idMapByte
    rw [hdiv, hmod]
  rw [Mem.read32_eq_byte, Mem.byte_add, Mem.byte_add, Mem.byte_add, Mem.byte_add,
    hbyte 3 (by decide), hbyte 2 (by decide), hbyte 1 (by decide), hbyte 0 (by decide)]
  exact Mem.extractLsb'_append _

/-- The loader there. -/
def assembledEntry : PageEntry boot386 where
  c :=
    { gpr := fun r => if r = .esp then 0xFFFE else 0
      seg := fun _ => 0x1000
      eip := 0
      eflags := 0x202
      mem := assembled
      tss := ⟨0, 0, 0⟩
      env := ⟨⟨5, 4096, fun _ => 0x90, 0⟩, [], 0⟩ }
  placed := ⟨rfl, by decide, by decide⟩
  df := by decide
  idMap _ hn := assembled_idMap hn

/-- The block of the example has its first page boundary at 110000h. -/
theorem assembledEntry_kernelAddr : assembledEntry.kernelAddr = 0x110000#32 := by decide

theorem windowLaw_assembled : WindowLaw assembledEntry :=
  windowLaw assembledEntry (by rw [assembledEntry_kernelAddr]; decide)
    (by rw [assembledEntry_kernelAddr]; decide)

/-- A dword that was left in memory before makes 00100000h a present address. The machine is one the
loader can be started on. -/
theorem bootPaging_stale : ¬ VacantLaw assembledEntry := by
  intro hlaw
  have hvacant := vacant_of_vacantLaw hlaw
  exact absurd (hvacant.low 256 (by decide) (by decide)) (by decide)

/-- For every CR3, every content of memory, every kernel address and every state of the loader: the
directory is at 100000h and nothing but the two windows is mapped exactly when CR3's page address
had no bit but that one, no entry of the two tables behind the written ones was present, and no
other present entry of the directory led to a table with a present entry, or to one of the three
pages themselves. -/
theorem vacantLaw_iff {l : Labels} (e : PageEntry l) : VacantLaw e ↔ Vacant e := by
  constructor
  · exact vacant_of_vacantLaw
  · intro hvacant
    obtain ⟨c, ⟨rounds, hc⟩, htables⟩ := pageSetup_run e
    have hcr3 := (frame_tables_iff htables).mpr hvacant.cr3
    have hnone := noneElsewhere_of_vacant htables hvacant
    exact ⟨rounds, c, hc, hcr3, (translate_none_iff hcr3).mpr hnone⟩

end OS90.Laws
