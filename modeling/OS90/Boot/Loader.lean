import OS90.Ia32.RealMode
import OS90.Kernel.Type

/-!
# The loader and what it calls

`BOOT386` is a DOS program in one segment. `Labels` are the places of its data there, `World` is
what it works on beside the processor: the file, the extended memory block behind the XMS driver,
and CR3. DOS and the driver do what their documentation says of the calls the loader makes. Which
of them fail, and what the driver leaves in BX, is open (`Services`).

A call is a function of the machine, and its arguments are read from the registers as DOS and the
driver read them. A move is not a store to the memory of the program: extended memory is out of its
reach, and so `World` has a list of the moves, each with the arguments and the bytes that the driver
found. The theorems about the image are about that list, and about `physical` memory later on.

A file has whole contents and a position. Reads past its end and writes are not needed by the
program, and are left out.
-/

namespace OS90.Boot

open OS90.Ia32 OS90.Ia32.Cpu OS90.Kernel

/-- An open file: `pos` is where the next read begins. -/
structure DosFile where
  handle : WORD
  size : DWORD
  data : Nat → BYTE
  pos : DWORD

/-- `XMM`, the argument of an extended memory move. With a source handle of zero `srcseg:srcoff` is
the source. -/
structure MoveStruct where
  len : DWORD
  srchan : WORD
  srcoff : WORD
  srcseg : WORD
  deshan : WORD
  desoff : DWORD
deriving DecidableEq

/-- A move, with the bytes that were at its source. -/
structure Move where
  args : MoveStruct
  bytes : List BYTE
deriving DecidableEq

structure World where
  file : DosFile
  moves : List Move
  cr3 : DWORD

abbrev Loader := Cpu World

/-- Offsets in the program's segment, in the order of the source. -/
structure Labels where
  path : Nat
  kernelAddr : Nat
  path_le : path ≤ kernelAddr
  xmm : Nat
  kernelAddr_le : kernelAddr + 4 ≤ xmm
  idMap : Nat
  xmm_le : xmm + 16 ≤ idMap
  buffer : Nat
  idMap_le : idMap + 1024 ≤ buffer

/-- The places of the data in the assembled program. -/
def boot386 : Labels where
  path := 0x4DC
  kernelAddr := 0x4EF
  path_le := by decide
  xmm := 0x517
  kernelAddr_le := by decide
  idMap := 0x527
  xmm_le := by decide
  buffer := 0x927
  idMap_le := by decide

/-- The program's segment. -/
def base (c : Loader) : DWORD := linear (c.seg .ds) 0#16

/-- The program as DOS starts it: data and stack in one segment of conventional memory, with room
for the stack above the buffer. -/
structure Labels.Placed (l : Labels) (c : Loader) : Prop where
  stack : c.seg .ss = c.seg .ds
  room : l.buffer + 4096 + 64 ≤ (c.reg16 .esp).toNat
  conventional : 16 * (c.seg .ds).toNat + 0x10000 ≤ 0x100000

/-- The data is in its order, all of it below the stack, and the stack in the segment. -/
theorem Labels.Placed.bounds {l : Labels} {c : Loader} (h : l.Placed c) :
    l.kernelAddr + 4 ≤ l.xmm ∧ l.xmm + 16 ≤ l.idMap ∧ l.idMap + 1024 ≤ l.buffer ∧
      l.buffer + 4096 + 64 ≤ (c.reg16 .esp).toNat ∧ (c.reg16 .esp).toNat < 2 ^ 16 :=
  ⟨l.kernelAddr_le, l.xmm_le, l.idMap_le, h.room, (c.reg16 .esp).isLt⟩

/-- Where the next word is pushed, as an offset of the segment: the stack has room by the placement
of the labels. -/
theorem Labels.Placed.push_place {l : Labels} {c : Loader} (h : l.Placed c) :
    linear (c.seg .ss) (c.reg16 .esp - 2#16) =
      base c + BitVec.ofNat 32 ((c.reg16 .esp).toNat - 2) := by
  obtain ⟨_, _, _, hroom, hlt⟩ := h.bounds
  rw [h.stack]
  refine linear_eq _ ?_
  rw [BitVec.toNat_sub, BitVec.toNat_ofNat]
  omega

/-- The error of a call, if it fails, and BX after a move. -/
structure Services where
  openError : Loader → Option WORD
  readError : Loader → Option WORD
  moveError : Loader → Option BYTE
  bx : Loader → WORD

structure Services.Succeed (d : Services) : Prop where
  opens : ∀ c, d.openError c = none
  reads : ∀ c, d.readError c = none
  moves : ∀ c, d.moveError c = none

/-! ## DOS -/

def dosFail (code : WORD) (c : Loader) : Loader := c.set16 .eax code |>.setCarry true

/-- The file pointer. -/
def setPos (pos : DWORD) (c : Loader) : Loader :=
  { c with env := { c.env with file := { c.env.file with pos := pos } } }

/-- `mov ah, 3Dh`. -/
def dosOpen (d : Services) (c : Loader) : Loader :=
  match d.openError c with
  | some code => dosFail code c
  | none => setPos 0 (c.set16 .eax c.env.file.handle |>.setCarry false)

/-- `mov ah, 3Eh`. -/
def dosClose (c : Loader) : Loader :=
  if c.reg16 .ebx = c.env.file.handle then c.setCarry false else dosFail 6 c

/-- A read of `n` bytes that are there. -/
def dosReadBytes (n : Nat) (c : Loader) : Loader :=
  let file := c.env.file
  let page := fun j => file.data (file.pos.toNat + j)
  setPos (file.pos + BitVec.ofNat 32 n)
    { c.set16 .eax (BitVec.ofNat 16 n) |>.setCarry false with
      mem := c.mem.splice (linear (c.seg .ds) (c.reg16 .edx)) n page }

/-- `mov ah, 3Fh`. A read at the end of the file is short. -/
def dosRead (d : Services) (c : Loader) : Loader :=
  let file := c.env.file
  if c.reg16 .ebx = file.handle then
    match d.readError c with
    | some code => dosFail code c
    | none => dosReadBytes (min (c.reg16 .ecx).toNat (file.size.toNat - file.pos.toNat)) c
  else dosFail 6 c

/-- Where the file pointer goes, by the method in AL. -/
def seekTarget (c : Loader) : Option DWORD :=
  let off := c.reg16 .ecx ++ c.reg16 .edx
  if c.low8 .eax = 0 then some off
  else if c.low8 .eax = 1 then some (c.env.file.pos + off)
  else if c.low8 .eax = 2 then some (c.env.file.size + off)
  else none

/-- `mov ah, 42h`. -/
def dosSeek (c : Loader) : Loader :=
  if c.reg16 .ebx = c.env.file.handle then
    match seekTarget c with
    | some pos =>
      setPos pos (c.set16 .edx (pos.extractLsb' 16 16) |>.set16 .eax (pos.setWidth 16)
        |>.setCarry false)
    | none => dosFail 1 c
  else dosFail 6 c

/-- `int 21h`. -/
def int21 (d : Services) (c : Loader) : Loader :=
  if c.high8 .eax = 0x3D then dosOpen d c
  else if c.high8 .eax = 0x3E then dosClose c
  else if c.high8 .eax = 0x3F then dosRead d c
  else if c.high8 .eax = 0x42 then dosSeek c
  else dosFail 1 c

/-! ## The XMS driver -/

def moveStructAt (mem : Mem) (a : DWORD) : MoveStruct where
  len := mem.read32 a
  srchan := mem.read16 (a + 4#32)
  srcoff := mem.read16 (a + 6#32)
  srcseg := mem.read16 (a + 8#32)
  deshan := mem.read16 (a + 10#32)
  desoff := mem.read32 (a + 12#32)

/-- The move that the structure at DS:SI describes. -/
def moveOf (c : Loader) : Move :=
  let args := moveStructAt c.mem (linear (c.seg .ds) (c.reg16 .esi))
  { args := args
    bytes := (List.range args.len.toNat).map (c.mem.byte (linear args.srcseg args.srcoff)) }

/-- `mov ah, 0Bh`, and the call of the driver. -/
def xmsMove (d : Services) (c : Loader) : Loader :=
  match d.moveError c with
  | some code => c.set16 .eax 0 |>.setLow8 .ebx code
  | none =>
    { c.set16 .eax 1 |>.set16 .ebx (d.bx c) with
      env := { c.env with moves := c.env.moves ++ [moveOf c] } }

/-! ## What a call does -/

section Calls

variable {d : Services} (c : Loader) (n : Nat) (q : Reg)

@[simp] theorem setPos_reg16 (pos : DWORD) : (setPos pos c).reg16 q = c.reg16 q := rfl

@[simp] theorem setPos_seg (pos : DWORD) : (setPos pos c).seg = c.seg := rfl

@[simp] theorem setPos_mem (pos : DWORD) : (setPos pos c).mem = c.mem := rfl

@[simp] theorem setPos_carry (pos : DWORD) : (setPos pos c).carry = c.carry := rfl

theorem dosReadBytes_reg16 :
    (dosReadBytes n c).reg16 q = if q = .eax then BitVec.ofNat 16 n else c.reg16 q :=
  set16_reg16 c .eax q _

@[simp] theorem dosReadBytes_seg : (dosReadBytes n c).seg = c.seg := rfl

@[simp] theorem dosReadBytes_carry : (dosReadBytes n c).carry = false := carry_setCarry _ _

/-- The bytes of the file from its position on are put at DS:DX, and memory is left alone
elsewhere. -/
theorem dosReadBytes_mem :
    (dosReadBytes n c).mem = c.mem.splice (linear (c.seg .ds) (c.reg16 .edx)) n
      fun j => c.env.file.data (c.env.file.pos.toNat + j) := rfl

/-- The position goes on by the bytes that are read. -/
theorem dosReadBytes_env :
    (dosReadBytes n c).env =
      { c.env with
        file := { c.env.file with pos := c.env.file.pos + BitVec.ofNat 32 n } } := rfl

variable {c}

/-- An open that succeeds answers the handle, clears the carry and puts the file at its
beginning. -/
theorem int21_open (h : c.high8 .eax = 0x3D) (hd : d.Succeed) :
    int21 d c = setPos 0 (c.set16 .eax c.env.file.handle |>.setCarry false) := by
  unfold int21 dosOpen
  rw [if_pos h, hd.opens]

/-- A read that does not reach past the end of the file reads all that was asked for, and moves the
position by as much. -/
theorem int21_read (h : c.high8 .eax = 0x3F) (hd : d.Succeed)
    (hbx : c.reg16 .ebx = c.env.file.handle)
    (hn : (c.reg16 .ecx).toNat ≤ c.env.file.size.toNat - c.env.file.pos.toNat) :
    int21 d c = dosReadBytes (c.reg16 .ecx).toNat c := by
  unfold int21 dosRead
  rw [if_neg (by rw [h]; decide), if_neg (by rw [h]; decide), if_pos h, if_pos hbx, hd.reads,
    Nat.min_eq_left hn]

/-- A seek of the open file by a method DOS knows answers the new position in DX:AX. That the handle
is that of the file is a premise, as DOS refuses another. -/
theorem int21_seek (h : c.high8 .eax = 0x42) (hbx : c.reg16 .ebx = c.env.file.handle)
    {pos : DWORD} (hpos : seekTarget c = some pos) :
    int21 d c = setPos pos (c.set16 .edx (pos.extractLsb' 16 16) |>.set16 .eax (pos.setWidth 16)
      |>.setCarry false) := by
  unfold int21 dosSeek
  rw [if_neg (by rw [h]; decide), if_neg (by rw [h]; decide), if_neg (by rw [h]; decide), if_pos h,
    if_pos hbx, hpos]

/-- The close of the open file clears the carry and does no more. -/
theorem int21_close (h : c.high8 .eax = 0x3E) (hbx : c.reg16 .ebx = c.env.file.handle) :
    int21 d c = c.setCarry false := by
  unfold int21 dosClose
  rw [if_neg (by rw [h]; decide), if_pos h, if_pos hbx]

/-- A move that is granted answers 1 in AX and something in BX, and leaves the other registers. -/
theorem xmsMove_reg16 (hd : d.Succeed) :
    (xmsMove d c).reg16 q =
      if q = .ebx then d.bx c else if q = .eax then 1#16 else c.reg16 q := by
  have hset : ((c.set16 .eax 1#16).set16 .ebx (d.bx c)).reg16 q =
      if q = .ebx then d.bx c else if q = .eax then 1#16 else c.reg16 q := by
    rw [set16_reg16, set16_reg16]
  unfold xmsMove
  rw [hd.moves]
  exact hset

theorem xmsMove_seg (hd : d.Succeed) : (xmsMove d c).seg = c.seg := by
  unfold xmsMove
  rw [hd.moves]
  rfl

/-- The driver moves the page to extended memory, of which the environment has the record. The
memory of the program is not written. -/
theorem xmsMove_mem (hd : d.Succeed) : (xmsMove d c).mem = c.mem := by
  unfold xmsMove
  rw [hd.moves]
  rfl

/-- A move is recorded with its arguments and with the bytes it finds in the buffer at that time. -/
theorem xmsMove_env (hd : d.Succeed) :
    (xmsMove d c).env = { c.env with moves := c.env.moves ++ [moveOf c] } := by
  unfold xmsMove
  rw [hd.moves]

end Calls

end OS90.Boot
