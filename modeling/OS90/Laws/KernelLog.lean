import Mathlib.Data.Nat.Digits.Defs
import Mathlib.Data.Nat.Find
import Mathlib.Order.Defs.LinearOrder
import OS90.Kernel.Debug

/-!
# What the kernel prints

Three laws of `Debug.c`: of the conversion of a number, of the scan of a format, and of the whole
message.

`PrintLaw` is what `Uint32ToString` is to do: write into its buffer only, and leave there the
decimal digits of the value. It stores ten digits, the last of them before the buffer, and the digit
worth a billion is the one that is not in the string (`decimalString_iff`).

Two laws of `KeLogf`. `ScanLaw` is that it ends, and looks at nothing past the NUL of its format.
`LogLaw` is that text and escapes come out as they should, wherever in memory the format is.

`KeLogf` never looks at `ch` again and takes every character for a format character, so it looks at
every third byte (`scanned`), whatever is in between, until one is not an escape. The NUL stops it
only if it is one of those. `scanLaw_iff` and `logLaw_iff` say which formats that is right for.
-/

namespace OS90.Laws

open OS90.Ia32 OS90.Kernel

/-! ## Numbers -/

/-- At the address is the string of these decimal digits. -/
structure DigitString (m : Mem) (a : PTR) (digits : List Nat) : Prop where
  lt : ∀ d ∈ digits, d < 10
  char : ∀ k d, digits[k]? = some d → m (a + BitVec.ofNat 32 k) = BitVec.ofNat 8 (0x30 + d)
  nul : m (a + BitVec.ofNat 32 digits.length) = 0

/-- At the address is a string of decimal digits with this value, the first digit the highest. -/
def DecimalString (m : Mem) (a : PTR) (value : Nat) : Prop :=
  ∃ digits, DigitString m a digits ∧ Nat.ofDigits 10 digits.reverse = value

/-- What a caller with a buffer of `MAX_STR_LENGTH_OF_UINT32 + 1` bytes is promised. -/
structure PrintLaw (value : DWORD) (obuffer : PTR) (m : Mem) : Prop where
  within : ∀ i ∈ (uint32ToString value obuffer m).written, i.toNat ≤ MAX_STR_LENGTH_OF_UINT32
  string : DecimalString (uint32ToString value obuffer m).mem obuffer value.toNat

/-! ## The writes -/

/-- The tenth digit is stored at index FFFFFFFFh, which is the byte before the buffer once the
address wraps. -/
theorem last_mem_written (value : DWORD) (obuffer : PTR) (m : Mem) :
    0xFFFFFFFF#32 ∈ (uint32ToString value obuffer m).written := by
  rw [(uint32ToString_printed value obuffer m).written]
  exact List.mem_append_right _ (List.mem_map.mpr ⟨9, by decide, by decide⟩)

/-- A small number, for a buffer on the stack: the byte under the buffer is overwritten. -/
theorem printLaw_ten : ¬ PrintLaw 10 0xC0080000 (fun _ => 0) := fun hlaw =>
  absurd (hlaw.within _ (last_mem_written 10 0xC0080000 fun _ => 0)) (by decide)

/-- For every value, buffer and memory: a byte is written that is not in the buffer. The byte is
that of the tenth digit, and no premise on the value can spare it, since all ten rounds run for each
value. -/
theorem not_printLaw (value : DWORD) (obuffer : PTR) (m : Mem) : ¬ PrintLaw value obuffer m := by
  intro hlaw
  exact absurd (hlaw.within _ (last_mem_written value obuffer m)) (by decide)

/-! ## The string -/

/-- The character of a digit is the digit above that of zero. -/
theorem digit_char_toNat {d : Nat} (hd : d < 10) :
    (BitVec.ofNat 8 (0x30 + d)).toNat = 0x30 + d := by
  rw [BitVec.toNat_ofNat]
  omega

/-- Of two strings at one place neither is the longer, as the first zero byte ends both. -/
theorem DigitString.length_le {m : Mem} {a : PTR} {ds es : List Nat} (hd : DigitString m a ds)
    (he : DigitString m a es) : es.length ≤ ds.length := by
  by_contra hlt
  have hnext : es[ds.length]? = some es[ds.length] := List.getElem?_eq_getElem (by omega)
  have hzero := congrArg BitVec.toNat ((he.char _ _ hnext).symm.trans hd.nul)
  have hnul : (0 : BYTE).toNat = 0 := rfl
  rw [digit_char_toNat (he.lt _ (List.getElem_mem _)), hnul] at hzero
  omega

/-- There is one string at a place at most. -/
theorem DigitString.unique {m : Mem} {a : PTR} {ds es : List Nat} (hd : DigitString m a ds)
    (he : DigitString m a es) : ds = es := by
  have hlength := le_antisymm (he.length_le hd) (hd.length_le he)
  apply List.ext_getElem hlength
  intro k hk hk'
  have hchar := (hd.char k _ (List.getElem?_eq_getElem hk)).symm.trans
    (he.char k _ (List.getElem?_eq_getElem hk'))
  have hnat := congrArg BitVec.toNat hchar
  rw [digit_char_toNat (hd.lt _ (List.getElem_mem hk)),
    digit_char_toNat (he.lt _ (List.getElem_mem hk'))] at hnat
  omega

/-- The lowest `n` digits of a number, from the lowest. -/
def digitsBelow (value n : Nat) : List Nat := (List.range n).map fun k => value / 10 ^ k % 10

/-- So many digits are so many characters. -/
theorem digitsBelow_length (value n : Nat) : (digitsBelow value n).length = n := by
  rw [digitsBelow, List.length_map, List.length_range]

/-- They are the digits of the value, the lowest first. -/
theorem ofDigits_digitsBelow (value n : Nat) :
    Nat.ofDigits 10 (digitsBelow value n) = value % 10 ^ n := by
  induction n with
  | zero => exact (Nat.mod_one value).symm
  | succ n ih =>
    have hlast : digitsBelow value (n + 1) = digitsBelow value n ++ [value / 10 ^ n % 10] := by
      rw [digitsBelow, digitsBelow, List.range_succ, List.map_append]
      rfl
    rw [hlast, Nat.ofDigits_append, ih, digitsBelow_length, Nat.ofDigits_singleton,
      Nat.mod_pow_succ]

/-- What is in the buffer afterwards: the nine lower digits, the highest of them first, and a zero
byte. The tenth digit is not among them. -/
theorem uint32ToString_digits (value : DWORD) (obuffer : PTR) (m : Mem) :
    DigitString (uint32ToString value obuffer m).mem obuffer
      (digitsBelow value.toNat 9).reverse := by
  have hprinted := uint32ToString_printed value obuffer m
  refine ⟨fun d hd => ?_, fun k d hk => ?_, ?_⟩
  · obtain ⟨j, _, rfl⟩ := List.mem_map.mp (List.mem_reverse.mp hd)
    exact Nat.mod_lt _ (by decide)
  · have hlt := (List.getElem?_eq_some_iff.mp hk).1
    rw [List.length_reverse, digitsBelow_length] at hlt
    have hplace : 8#32 - BitVec.ofNat 32 (8 - k) = BitVec.ofNat 32 k := by
      apply BitVec.eq_of_toNat_eq
      rw [BitVec.toNat_sub, BitVec.toNat_ofNat, BitVec.toNat_ofNat, BitVec.toNat_ofNat]
      omega
    have hdigit : value.toNat / 10 ^ (8 - k) % 10 = d := by
      rw [List.getElem?_reverse (by rwa [digitsBelow_length]), digitsBelow_length, digitsBelow,
        List.getElem?_map, List.getElem?_range (by omega)] at hk
      exact Option.some.inj hk
    rw [← hplace, hprinted.digits (8 - k) (by unfold MAX_STR_LENGTH_OF_UINT32; omega), digitChar,
      hdigit]
  · rw [List.length_reverse, digitsBelow_length]
    exact hprinted.nul

/-- For every value, buffer and memory: the string is the value's exactly when it has at most nine
digits. -/
theorem decimalString_iff (value : DWORD) (obuffer : PTR) (m : Mem) :
    DecimalString (uint32ToString value obuffer m).mem obuffer value.toNat ↔
      value.toNat < 10 ^ 9 := by
  have hstring := uint32ToString_digits value obuffer m
  have hvalue : Nat.ofDigits 10 (digitsBelow value.toNat 9).reverse.reverse =
      value.toNat % 10 ^ 9 := by
    rw [List.reverse_reverse, ofDigits_digitsBelow]
  constructor
  · rintro ⟨digits, hdigits, hsame⟩
    rw [hdigits.unique hstring, hvalue] at hsame
    rw [← hsame]
    exact Nat.mod_lt _ (by decide)
  · intro hlt
    exact ⟨_, hstring, hvalue.trans (Nat.mod_eq_of_lt hlt)⟩

/-! ## Formats -/

/-! ## The indices -/

/-- Before the counter wraps, round `n` looks at every third character. -/
theorem scanned_of_lt {n : Nat} (h : 3 * n + 2 < 65536) : scanned n = 3 * n + 1 := by
  unfold scanned
  omega

/-- The counter has sixteen bits, and so the scan stays within 64 KiB of the text. -/
theorem scanned_bounds (n : Nat) : -1 ≤ scanned n ∧ scanned n ≤ 65534 := by
  unfold scanned
  omega

/-- Going round the sixteen bits three times, the scan comes to every index that it can name. -/
theorem scanned_surjective {j : Int} (hlow : -1 ≤ j) (hhigh : j ≤ 65534) :
    ∃ n, scanned n = j := by
  obtain ⟨m, hm⟩ : ∃ m : Nat, (m : Int) = j + 1 := ⟨(j + 1).toNat, by omega⟩
  -- 43691 is a third, modulo 65536
  refine ⟨43691 * (m + 65534), ?_⟩
  unfold scanned
  omega

/-! ## Where the scan ends -/

/-- A format: bytes that are not NUL, and a NUL. -/
structure FormatString where
  fmt : Format
  length : Nat
  terminated : fmt length = 0
  nonzero : ∀ k : Nat, k < length → fmt k ≠ 0

/-- It ends, and reads nothing past the NUL. -/
def ScanLaw (f : FormatString) : Prop :=
  ∃ rounds s, keLogf f.fmt rounds = some s ∧ ∀ j ∈ s.reads, j ≤ f.length

/-- The format is empty, or one of the bytes from the second on, three apart, is not an escape. In a
format that the counter cannot reach the end of, any byte it can reach does, the one before the
format too. -/
def ScanStops (f : FormatString) : Prop :=
  if f.length < 65534 then
    f.length = 0 ∨ ∃ k : Nat, 3 * k + 1 ≤ f.length ∧ ¬ Escape (f.fmt (3 * k + 1))
  else ∃ j : Int, -1 ≤ j ∧ j ≤ 65534 ∧ ¬ Escape (f.fmt j)

theorem not_escape_zero : ¬ Escape 0 := by
  decide

/-- If the scan ever looks at something that is no escape, there is a first time. -/
theorem exists_first {fmt : Format} (h : ∃ n, ¬ Escape (fmt (scanned n))) :
    ∃ n, ¬ Escape (fmt (scanned n)) ∧ ∀ k < n, Escape (fmt (scanned k)) :=
  ⟨Nat.find h, Nat.find_spec h, fun _ hk => not_not.mp (Nat.find_min h hk)⟩

/-- A scan that ends does so at the first index that is not an escape, with the output up to there,
and has read the places it looked at. -/
theorem keLogf_first {fmt : Format} (h : fmt 0 ≠ 0) {rounds : Nat} {s : Logging}
    (hrun : keLogf fmt rounds = some s) :
    ∃ n, ¬ Escape (fmt (scanned n)) ∧ (∀ k < n, Escape (fmt (scanned k))) ∧
      s.output = printed fmt n ∧ ∀ j, j ∈ s.reads ↔ j = 0 ∨ ∃ k < n + 1, j = scanned k := by
  have hstops : ∃ n, ¬ Escape (fmt (scanned n)) := by
    by_contra hnone
    exact keLogf_endless h (fun k => not_not.mp fun hk => hnone ⟨k, hk⟩) s ⟨rounds, hrun⟩
  obtain ⟨n, hstop, hbefore⟩ := exists_first hstops
  obtain ⟨t, hleaves, houtput, hreads⟩ := keLogf_leaves h hbefore hstop
  obtain rfl := Loop.Leaves.unique ⟨rounds, hrun⟩ hleaves
  exact ⟨n, hstop, hbefore, houtput, hreads⟩

/-- For a format that is not empty, the law is about the indices up to the first that stops the
scan. -/
theorem scanLaw_iff_scanned {f : FormatString} (h : f.fmt 0 ≠ 0) :
    ScanLaw f ↔ ∃ n, ¬ Escape (f.fmt (scanned n)) ∧ ∀ k ≤ n, scanned k ≤ f.length := by
  constructor
  · rintro ⟨rounds, s, hrun, hwithin⟩
    obtain ⟨n, hstop, _, _, hreads⟩ := keLogf_first h hrun
    exact ⟨n, hstop, fun k hk => hwithin _ ((hreads _).mpr (Or.inr ⟨k, by omega, rfl⟩))⟩
  · rintro ⟨n, hstop, hwithin⟩
    obtain ⟨first, hfirst, hbefore⟩ := exists_first ⟨n, hstop⟩
    obtain ⟨s, ⟨rounds, hrun⟩, _, hreads⟩ := keLogf_leaves h hbefore hfirst
    have hle : first ≤ n := by
      by_contra hlt
      exact hstop (hbefore n (by omega))
    refine ⟨rounds, s, hrun, fun j hj => ?_⟩
    rcases (hreads j).mp hj with rfl | ⟨k, hk, rfl⟩
    · omega
    · exact hwithin k (by omega)

/-- In a format the counter can reach the end of, it comes to the indices one after the other. -/
theorem stops_short_iff {f : FormatString} (h : f.length < 65534) :
    (∃ n, ¬ Escape (f.fmt (scanned n)) ∧ ∀ k ≤ n, scanned k ≤ f.length) ↔
      ∃ k : Nat, 3 * k + 1 ≤ f.length ∧ ¬ Escape (f.fmt (3 * k + 1)) := by
  constructor
  · rintro ⟨n, hstop, hwithin⟩
    by_cases hn : 3 * n + 2 < 65536
    · have hle := hwithin n le_rfl
      rw [scanned_of_lt hn] at hle hstop
      exact ⟨n, by omega, hstop⟩
    · -- the scan has come to index 65533, which must be the NUL
      have hle := hwithin 21844 (by omega)
      rw [scanned_of_lt (by decide)] at hle
      have hlength : f.length = 3 * 21844 + 1 := by omega
      have hend := f.terminated
      rw [hlength] at hend
      exact ⟨21844, by omega, fun hescape => not_escape_zero (hend ▸ hescape)⟩
  · rintro ⟨n, hle, hstop⟩
    refine ⟨n, ?_, fun k hk => ?_⟩
    · rwa [scanned_of_lt (by omega)]
    · rw [scanned_of_lt (by omega)]
      omega

/-- In a format of 64 KiB or more every index the scan can name is in it, or right before it. So the
scan stays inside if and only if one of these is no escape. -/
theorem stops_long_iff {f : FormatString} (h : 65534 ≤ f.length) :
    (∃ n, ¬ Escape (f.fmt (scanned n)) ∧ ∀ k ≤ n, scanned k ≤ f.length) ↔
      ∃ j : Int, -1 ≤ j ∧ j ≤ 65534 ∧ ¬ Escape (f.fmt j) := by
  constructor
  · rintro ⟨n, hstop, _⟩
    obtain ⟨hlow, hhigh⟩ := scanned_bounds n
    exact ⟨scanned n, hlow, hhigh, hstop⟩
  · rintro ⟨j, hlow, hhigh, hstop⟩
    obtain ⟨n, rfl⟩ := scanned_surjective hlow hhigh
    refine ⟨n, hstop, fun k _ => ?_⟩
    have hk := (scanned_bounds k).2
    omega

/-- For every format of every length and the memory around it: `KeLogf` ends and reads nothing past
the NUL exactly when the format is empty or a byte on its path in the format stops it. The path is
that of a counter of sixteen bits, and the wrap of it is part of the condition. Nothing is said of
what is printed. -/
theorem scanLaw_iff (f : FormatString) : ScanLaw f ↔ ScanStops f := by
  unfold ScanStops
  by_cases hempty : f.length = 0
  · have hzero : f.fmt 0 = 0 := by
      have hend := f.terminated
      rwa [hempty] at hend
    obtain ⟨rounds, hrun⟩ := keLogf_empty hzero
    rw [if_pos (by omega)]
    refine iff_of_true ⟨rounds, _, hrun, fun j hj => ?_⟩ (Or.inl hempty)
    rw [List.mem_singleton.mp hj]
    omega
  · rw [scanLaw_iff_scanned (f.nonzero 0 (by omega))]
    by_cases hshort : f.length < 65534
    · rw [if_pos hshort, or_iff_right hempty, stops_short_iff hshort]
    · rw [if_neg hshort, stops_long_iff (by omega)]

/-- `@x`, with more of the same behind its NUL. -/
def hexOnly : FormatString where
  fmt j := if j = 0 then 0x40 else if j = 2 then 0 else 0x78
  length := 2
  terminated := rfl
  nonzero k hk := by
    revert k
    decide

/-- For the two characters of an escape alone, the scan steps over the zero byte behind them. -/
theorem scanLaw_hexOnly : ¬ ScanLaw hexOnly := by
  intro hlaw
  obtain ⟨n, hstop, hwithin⟩ := (scanLaw_iff_scanned (f := hexOnly) (by decide)).mp hlaw
  have hn : n = 0 := by
    by_contra hpos
    exact absurd (hwithin 1 (by omega)) (by decide)
  subst hn
  exact hstop (by decide)

/-! ## What is printed -/

/-- The two characters of escapes. -/
inductive Marker where
  | at
  | hash
deriving DecidableEq

def Marker.val : Marker → BYTE
  | .at => 0x40
  | .hash => 0x23

/-- A piece of a format that prints one character: itself, or the second of an escape. -/
inductive LogToken where
  | literal (c : BYTE) (plain : c ≠ 0x40 ∧ c ≠ 0x23 ∧ c ≠ 0)
  | escape (first second : Marker)

namespace LogToken

/-- How it is written. -/
def bytes : LogToken → List BYTE
  | literal c _ => [c]
  | escape first second => [first.val, second.val]

/-- What it prints. -/
def shown : LogToken → BYTE
  | literal c _ => c
  | escape _ second => second.val

end LogToken

/-- The format is these bytes and a NUL. -/
def FormatOf (fmt : Format) (bytes : List BYTE) : Prop :=
  (∀ (k : Nat) b, bytes[k]? = some b → fmt k = b) ∧ fmt bytes.length = 0

/-- It ends, and gives the driver these bytes in this order. -/
def Prints (fmt : Format) (bytes : List BYTE) : Prop :=
  ∃ rounds s, keLogf fmt rounds = some s ∧ s.output = bytes

/-- The bytes that are looked at, up to the first that is not an escape, show these markers. -/
def ScanShows (fmt : Format) (bytes : List BYTE) : Prop :=
  ∃ n, ¬ Escape (fmt (scanned n)) ∧ (∀ k < n, Escape (fmt (scanned k))) ∧ printed fmt n = bytes

/-- A format comes out as it should wherever it is. -/
def LogLaw (tokens : List LogToken) : Prop :=
  ∀ fmt, FormatOf fmt (tokens.flatMap LogToken.bytes) → Prints fmt (tokens.map LogToken.shown)

/-- What is printed is what the scan shows, if the text is not empty. The scan is the counter alone,
without the log. -/
theorem prints_iff_scanShows {fmt : Format} (h : fmt 0 ≠ 0) (bytes : List BYTE) :
    Prints fmt bytes ↔ ScanShows fmt bytes := by
  constructor
  · rintro ⟨rounds, s, hrun, rfl⟩
    obtain ⟨n, hstop, hbefore, houtput, _⟩ := keLogf_first h hrun
    exact ⟨n, hstop, hbefore, houtput.symm⟩
  · rintro ⟨n, hstop, hbefore, rfl⟩
    obtain ⟨s, ⟨rounds, hrun⟩, houtput, _⟩ := keLogf_leaves h hbefore hstop
    exact ⟨rounds, s, hrun, houtput⟩

theorem Escape.of_marker {b : BYTE} (h : b = 0x23 ∨ b = 0x40) : Escape b :=
  Or.inr (Or.inr (Or.inr h))

/-- No character but `#` and `@` is ever sent to the log. -/
theorem mem_emitted {b c : BYTE} (h : c ∈ emitted b) : c = 0x23 ∨ c = 0x40 := by
  unfold emitted at h
  by_cases hb : b = 0x23 ∨ b = 0x40
  · rw [if_pos hb, List.mem_singleton] at h
    rwa [h]
  · rw [if_neg hb] at h
    cases h

/-- Only markers are ever printed, in however many rounds. -/
theorem mem_printed {fmt : Format} {n : Nat} {c : BYTE} (h : c ∈ printed fmt n) :
    c = 0x23 ∨ c = 0x40 := by
  obtain ⟨k, _, hk⟩ := List.mem_flatMap.mp h
  exact mem_emitted hk

/-- One byte is printed for each round that looks at a marker. -/
theorem printed_length {fmt : Format} {n : Nat}
    (h : ∀ k < n, fmt (scanned k) = 0x23 ∨ fmt (scanned k) = 0x40) :
    (printed fmt n).length = n := by
  induction n with
  | zero => rfl
  | succ n ih =>
    have hlast : emitted (fmt (scanned n)) = [fmt (scanned n)] := if_pos (h n n.lt_succ_self)
    have hprinted : printed fmt (n + 1) = printed fmt n ++ emitted (fmt (scanned n)) := by
      rw [printed, printed, List.range_succ, List.flatMap_append, List.flatMap_singleton]
    rw [hprinted, hlast, List.length_append, ih fun k hk => h k (by omega)]
    rfl

/-- Output only grows. -/
theorem printed_length_mono (fmt : Format) {n m : Nat} (h : n ≤ m) :
    (printed fmt n).length ≤ (printed fmt m).length := by
  obtain ⟨d, rfl⟩ := Nat.exists_eq_add_of_le h
  rw [printed, printed, List.range_add, List.flatMap_append, List.length_append]
  exact Nat.le_add_right _ _

/-- A format whose tokens print only markers has no other characters, two to each token. -/
theorem markers_of_shown {tokens : List LogToken}
    (h : ∀ c ∈ tokens.map LogToken.shown, c = 0x23 ∨ c = 0x40) :
    (∀ b ∈ tokens.flatMap LogToken.bytes, b = 0x23 ∨ b = 0x40) ∧
      (tokens.flatMap LogToken.bytes).length = 2 * tokens.length := by
  induction tokens with
  | nil => exact ⟨fun b hb => absurd hb List.not_mem_nil, rfl⟩
  | cons token tokens ih =>
    obtain ⟨hmarkers, hlength⟩ := ih fun c hc => h c (List.mem_cons_of_mem _ hc)
    have hshown := h token.shown List.mem_cons_self
    cases token with
    | literal c plain => exact (hshown.elim plain.2.1 plain.1).elim
    | escape first second =>
      refine ⟨fun b hb => ?_, ?_⟩
      · rcases List.mem_append.mp hb with hb | hb
        · have hval : ∀ m : Marker, m.val = 0x23 ∨ m.val = 0x40 := by
            intro m
            cases m
            · exact Or.inr rfl
            · exact Or.inl rfl
          rcases List.mem_pair.mp hb with rfl | rfl
          · exact hval first
          · exact hval second
        · exact hmarkers b hb
      · rw [List.flatMap_cons, List.length_append, hlength, List.length_cons]
        show 2 + 2 * tokens.length = _
        omega

/-- No token has a zero byte, so that the text of a sequence ends where the sequence does. -/
theorem bytes_ne_zero {tokens : List LogToken} {b : BYTE}
    (h : b ∈ tokens.flatMap LogToken.bytes) : b ≠ 0 := by
  obtain ⟨token, _, hb⟩ := List.mem_flatMap.mp h
  have hval : ∀ m : Marker, m.val ≠ 0 := by
    intro m
    cases m <;> decide
  cases token with
  | literal c plain =>
    rw [List.mem_singleton.mp hb]
    exact plain.2.2
  | escape first second =>
    rcases List.mem_pair.mp hb with rfl | rfl
    · exact hval first
    · exact hval second

/-! ## Two surroundings of a format -/

/-- The format with the same byte everywhere around it. -/
def surround (bytes : List BYTE) (around : BYTE) : Format := fun j =>
  if j < 0 then around else if j = bytes.length then 0 else bytes[j.toNat]?.getD around

section Surround

variable (bytes : List BYTE) (around : BYTE)

/-- Within the text the characters are those of the text. -/
theorem surround_inside {j : Int} (hlow : 0 ≤ j) (hhigh : j < bytes.length) :
    surround bytes around j ∈ bytes := by
  have hin : j.toNat < bytes.length := by omega
  unfold surround
  rw [if_neg (by omega), if_neg (by omega), List.getElem?_eq_getElem hin]
  exact List.getElem_mem hin

/-- Around it they are the one that was chosen. -/
theorem surround_outside {j : Int} (h : j < 0 ∨ bytes.length < j) :
    surround bytes around j = around := by
  unfold surround
  rcases h with hlow | hhigh
  · rw [if_pos hlow]
  · rw [if_neg (by omega), if_neg (by omega), List.getElem?_eq_none (by omega)]
    rfl

theorem surround_formatOf : FormatOf (surround bytes around) bytes := by
  constructor
  · intro k b hk
    have hlt : k < bytes.length := (List.getElem?_eq_some_iff.mp hk).1
    unfold surround
    rw [if_neg (by omega), if_neg (by omega), Int.toNat_natCast, hk]
    rfl
  · unfold surround
    rw [if_neg (by omega), if_pos rfl]

end Surround

/-- With zeros around the format, only bytes of it are escapes. -/
theorem inside_of_escape {bytes : List BYTE} {j : Int} (h : Escape (surround bytes 0 j)) :
    0 ≤ j ∧ j < bytes.length := by
  by_contra houtside
  have hzero : surround bytes 0 j = 0 := by
    rcases Int.lt_trichotomy j bytes.length with hlt | heq | hgt
    · exact surround_outside bytes 0 (Or.inl (by omega))
    · rw [heq]
      exact (surround_formatOf bytes 0).2
    · exact surround_outside bytes 0 (Or.inr hgt)
  exact not_escape_zero (hzero ▸ h)

/-- A scan that has looked at `n` bytes of a format of `2 * n` does not come to its NUL next. -/
theorem scanned_ne_end {n : Nat} (hinside : ∀ k < n, scanned k < 2 * n) :
    scanned n ≠ 2 * n := by
  intro hend
  by_cases hn : 3 * n + 2 < 65536
  · rw [scanned_of_lt hn] at hend
    omega
  · have hlast := hinside 21844 (by omega)
    have hbound := (scanned_bounds n).2
    unfold scanned at hend
    omega

section Markers

variable {bytes shown : List BYTE} (hmarker : ∀ b ∈ bytes, b = 0x23 ∨ b = 0x40)
  (hlength : bytes.length = 2 * shown.length)

include hmarker

/-- If the text has no other characters than the two markers, the scan finds only markers there. -/
theorem surround_marker (around : BYTE) {j : Int} (hlow : 0 ≤ j) (hhigh : j < bytes.length) :
    surround bytes around j = 0x23 ∨ surround bytes around j = 0x40 :=
  hmarker _ (surround_inside bytes around hlow hhigh)

include hlength

/-- With zeros around it, the scan stops where it leaves the format, with as many characters printed
as it has looked at. -/
theorem ScanShows.zeros (h : ScanShows (surround bytes 0) shown) :
    (∀ k < shown.length, 0 ≤ scanned k ∧ scanned k < bytes.length) ∧
      (scanned shown.length < 0 ∨ bytes.length < scanned shown.length) := by
  obtain ⟨n, hstop, hbefore, hshown⟩ := h
  have hinside := fun k hk => inside_of_escape (hbefore k hk)
  have hn : shown.length = n := by
    have hcount := printed_length fun k hk =>
      surround_marker hmarker 0 (hinside k hk).1 (hinside k hk).2
    rwa [hshown] at hcount
  subst hn
  refine ⟨hinside, ?_⟩
  have hend : scanned shown.length ≠ 2 * shown.length := scanned_ne_end fun k hk => by
    have hk' := (hinside k hk).2
    omega
  by_contra hin
  exact hstop (Escape.of_marker (surround_marker hmarker 0 (by omega) (by omega)))

/-- With markers around it, at least one character more is printed than with zeros. So no format
prints the same in both. -/
theorem not_scanShows_markers (h : ScanShows (surround bytes 0) shown) :
    ¬ ScanShows (surround bytes 0x40) shown := by
  obtain ⟨hinside, hpast⟩ := h.zeros hmarker hlength
  rintro ⟨n, hstop, _, hshown⟩
  have hlooked : ∀ k < shown.length + 1, surround bytes 0x40 (scanned k) = 0x23 ∨
      surround bytes 0x40 (scanned k) = 0x40 := by
    intro k hk
    rcases Nat.lt_succ_iff_lt_or_eq.mp hk with hlt | rfl
    · exact surround_marker hmarker 0x40 (hinside k hlt).1 (hinside k hlt).2
    · exact Or.inr (surround_outside bytes 0x40 hpast)
  have hlonger : shown.length + 1 ≤ n := by
    by_contra hshort
    exact hstop (Escape.of_marker (hlooked n (by omega)))
  have hcount := printed_length_mono (surround bytes 0x40) hlonger
  rw [printed_length hlooked, hshown] at hcount
  omega

end Markers

/-! ## The law -/

/-- A sequence with a token in it begins with a byte that is not zero. -/
theorem format_zero_ne {tokens : List LogToken} (hne : tokens ≠ []) {fmt : Format}
    (hfmt : FormatOf fmt (tokens.flatMap LogToken.bytes)) : fmt 0 ≠ 0 := by
  have hpos : 0 < (tokens.flatMap LogToken.bytes).length := by
    obtain ⟨token, rest, rfl⟩ := List.exists_cons_of_ne_nil hne
    rw [List.flatMap_cons, List.length_append]
    cases token with
    | literal c plain => exact Nat.add_pos_left Nat.one_pos _
    | escape first second => exact Nat.add_pos_left Nat.two_pos _
  have hfirst := hfmt.1 0 _ (List.getElem?_eq_getElem hpos)
  change fmt 0 = _ at hfirst
  rw [hfirst]
  exact bytes_ne_zero (List.getElem_mem hpos)

/-- For every sequence of texts and escapes and every place in memory: what is printed is right if
the sequence is empty or the scan shows it. -/
theorem prints_tokens_iff {tokens : List LogToken} {fmt : Format}
    (hfmt : FormatOf fmt (tokens.flatMap LogToken.bytes)) :
    Prints fmt (tokens.map LogToken.shown) ↔
      tokens = [] ∨ ScanShows fmt (tokens.map LogToken.shown) := by
  by_cases hempty : tokens = []
  · subst hempty
    obtain ⟨rounds, hrun⟩ := keLogf_empty hfmt.2
    exact iff_of_true ⟨rounds, _, hrun, rfl⟩ (Or.inl rfl)
  · rw [prints_iff_scanShows (format_zero_ne hempty hfmt), or_iff_right hempty]

/-- No text, and no escape, comes out as it should everywhere. The scan of markers alone leaves the
format somewhere, and goes on or not with what is there. -/
theorem eq_nil_of_logLaw {tokens : List LogToken} (hlaw : LogLaw tokens) : tokens = [] := by
  by_contra hne
  have hshows : ∀ around, ScanShows (surround (tokens.flatMap LogToken.bytes) around)
      (tokens.map LogToken.shown) := by
    intro around
    have hfmt := surround_formatOf (tokens.flatMap LogToken.bytes) around
    exact ((prints_tokens_iff hfmt).mp (hlaw _ hfmt)).resolve_left hne
  obtain ⟨n, _, _, hprinted⟩ := hshows 0
  have hshown : ∀ c ∈ tokens.map LogToken.shown, c = 0x23 ∨ c = 0x40 :=
    fun c hc => mem_printed (hprinted ▸ hc)
  obtain ⟨hmarker, hlength⟩ := markers_of_shown hshown
  rw [← List.length_map LogToken.shown] at hlength
  exact not_scanShows_markers hmarker hlength (hshows 0) (hshows 0x40)

/-- For every sequence of text and escapes: at a place in memory `KeLogf` prints it, and nothing
else, exactly when the sequence is empty or the bytes that are looked at show its markers, and it
does so at every place exactly when the sequence is empty. The first part is about one place, and
the second follows by choosing what is around it. -/
theorem logLaw_iff (tokens : List LogToken) :
    (∀ fmt, FormatOf fmt (tokens.flatMap LogToken.bytes) →
      (Prints fmt (tokens.map LogToken.shown) ↔
        tokens = [] ∨ ScanShows fmt (tokens.map LogToken.shown))) ∧
      (LogLaw tokens ↔ tokens = []) := by
  refine ⟨fun _ => prints_tokens_iff, eq_nil_of_logLaw, ?_⟩
  rintro rfl fmt hfmt
  exact (prints_tokens_iff hfmt).mpr (Or.inl rfl)

/-- `@@`, with zeros around it, comes out right, which is why the surroundings are in the law. -/
theorem at_printed : Prints (surround [0x40, 0x40] 0) [0x40] := by
  have hfmt := surround_formatOf ([.escape .at .at].flatMap LogToken.bytes) 0
  refine ((logLaw_iff [.escape .at .at]).1 _ hfmt).mpr (Or.inr ⟨1, ?_, ?_, ?_⟩)
  · decide
  · decide
  · rfl

/-- The first letter of the message for a fatal error, with zeros around it, does not. -/
theorem letter_not_printed :
    FormatOf (surround [0x54] 0) ([.literal 0x54 (by decide)].flatMap LogToken.bytes) ∧
      ¬ Prints (surround [0x54] 0) ([.literal 0x54 (by decide)].map LogToken.shown) := by
  refine ⟨surround_formatOf [0x54] 0, fun hprints => ?_⟩
  obtain ⟨n, _, _, hprinted⟩ := (prints_iff_scanShows (by decide) _).mp hprints
  have hletter : (0x54 : BYTE) ∈ printed (surround [0x54] 0) n := by
    rw [hprinted]
    exact List.mem_singleton_self _
  exact absurd (mem_printed hletter) (by decide)

end OS90.Laws
