import Dchat.Foundations.Bytes
import Mathlib.Data.List.Lex
import Mathlib.Data.List.TakeWhile
import Mathlib.Data.Int.Notation
import Mathlib.Order.Defs.LinearOrder
import Mathlib.Tactic.Common

/-!
# C strings

The functions of `string.h` and `ctype.h`, in the C locale, on the bytes of a string before its
NUL, and the decimal text of a number.

* `strcmp_pos` and `strcmp_eq_zero`: on strings without NUL, `strcmp` compares in the
  lexicographic order of `rank`, the byte values of the string.
* `takeWhile_append_of_stops` and `dropWhile_append_of_stops` split a string at the end of a field.
* `digitsValue_decimal`: the digits of a number are read back.
-/

namespace Dchat

/-- The bytes of a string literal. -/
def str (s : String) : Bytes := s.toList.map fun c => c.toNat.toUInt8

namespace CString

/-! ## Classes of bytes -/

/-- `isspace`. -/
def isSpace (c : UInt8) : Bool := c = 32 ∨ 9 ≤ c ∧ c ≤ 13

/-- `isdigit`. -/
def isDigit (c : UInt8) : Bool := 48 ≤ c ∧ c ≤ 57

theorem isSpace_of_isDigit {c : UInt8} (h : isDigit c = true) : isSpace c = false := by
  simp only [isDigit, isSpace, decide_eq_true_eq, decide_eq_false_iff_not, UInt8.le_iff_toNat_le,
    ← UInt8.toNat_inj] at *
  simp only [UInt8.reduceToNat] at *
  omega

/-! ## The end of a field -/

/-- A field of bytes of the class `p` ends where `rest` begins. -/
def Stops (p : UInt8 → Bool) (rest : Bytes) : Prop := ∀ c ∈ rest.head?, p c = false

@[simp] theorem stops_nil (p : UInt8 → Bool) : Stops p [] := by simp [Stops]

@[simp] theorem stops_cons (p : UInt8 → Bool) (c : UInt8) (rest : Bytes) :
    Stops p (c :: rest) ↔ p c = false := by simp [Stops]

theorem stops_append {p : UInt8 → Bool} {w : Bytes} (hne : w ≠ []) (rest : Bytes) :
    Stops p (w ++ rest) ↔ Stops p w := by
  cases w with
  | nil => exact absurd rfl hne
  | cons c w => rw [List.cons_append, stops_cons, stops_cons]

theorem takeWhile_of_stops {p : UInt8 → Bool} {rest : Bytes} (h : Stops p rest) :
    rest.takeWhile p = [] := by
  cases rest with
  | nil => rfl
  | cons c rest => rw [List.takeWhile_cons, (stops_cons p c rest).1 h]; rfl

theorem dropWhile_of_stops {p : UInt8 → Bool} {rest : Bytes} (h : Stops p rest) :
    rest.dropWhile p = rest := by
  cases rest with
  | nil => rfl
  | cons c rest => rw [List.dropWhile_cons, (stops_cons p c rest).1 h]; rfl

theorem stops_dropWhile (p : UInt8 → Bool) (s : Bytes) : Stops p (s.dropWhile p) := by
  intro c hc
  have hhead := List.head?_dropWhile_not p s
  rw [Option.mem_def.1 hc] at hhead
  exact hhead

theorem stops_takeWhile {p : UInt8 → Bool} {s : Bytes} (h : Stops p s) (q : UInt8 → Bool) :
    Stops p (s.takeWhile q) := by
  cases s with
  | nil => exact stops_nil p
  | cons c s =>
    rw [List.takeWhile_cons]
    split
    · exact (stops_cons ..).2 ((stops_cons ..).1 h)
    · exact stops_nil p

theorem takeWhile_append_of_stops {p : UInt8 → Bool} {w rest : Bytes} (hw : ∀ c ∈ w, p c = true)
    (hr : Stops p rest) : (w ++ rest).takeWhile p = w := by
  rw [List.takeWhile_append_of_pos hw, takeWhile_of_stops hr, List.append_nil]

theorem dropWhile_append_of_stops {p : UInt8 → Bool} {w rest : Bytes} (hw : ∀ c ∈ w, p c = true)
    (hr : Stops p rest) : (w ++ rest).dropWhile p = rest := by
  rw [List.dropWhile_append_of_pos hw, dropWhile_of_stops hr]

/-- A word begins with no white space. -/
theorem dropWhile_word {word : Bytes} (hne : word ≠ [])
    (hw : (word.all fun c => !isSpace c) = true) (rest : Bytes) :
    (word ++ rest).dropWhile isSpace = word ++ rest := by
  refine dropWhile_of_stops ((stops_append hne rest).2 ?_)
  intro c hc
  simpa using List.all_eq_true.1 hw c (List.mem_of_mem_head? hc)

/-- What a field begins with. -/
theorem prefix_takeWhile_iff {p : UInt8 → Bool} {a s : Bytes} :
    a <+: s.takeWhile p ↔ a <+: s ∧ ∀ c ∈ a, p c = true := by
  constructor
  · intro h
    exact ⟨h.trans (List.takeWhile_prefix p), fun c hc => List.mem_takeWhile_imp (h.subset hc)⟩
  · rintro ⟨⟨rest, rfl⟩, hall⟩
    rw [List.takeWhile_append_of_pos hall]
    exact List.prefix_append a _

/-- What follows what is skipped. -/
theorem prefix_dropWhile_iff {p : UInt8 → Bool} {a s : Bytes} (hne : a ≠ []) (ha : Stops p a) :
    a <+: s.dropWhile p ↔ ∃ b, (∀ c ∈ b, p c = true) ∧ b ++ a <+: s := by
  constructor
  · intro h
    refine ⟨s.takeWhile p, fun c hc => List.mem_takeWhile_imp hc, ?_⟩
    conv_rhs => rw [← List.takeWhile_append_dropWhile (p := p) (l := s)]
    exact (List.prefix_append_right_inj _).2 h
  · rintro ⟨b, hb, rest, rfl⟩
    rw [List.append_assoc, List.dropWhile_append_of_pos hb,
      dropWhile_of_stops ((stops_append hne rest).2 ha)]
    exact List.prefix_append a rest

/-- What is scanned of a text does not reach behind a byte that is in neither class. -/
theorem field_append {p q : UInt8 → Bool} {stop : UInt8} (hp : p stop = false) (hq : q stop = false)
    (s rest : Bytes) : ((s ++ stop :: rest).dropWhile p).takeWhile q = (s.dropWhile p).takeWhile q := by
  have hfield : ∀ t : Bytes, (t ++ stop :: rest).takeWhile q = t.takeWhile q := by
    intro t
    induction t with
    | nil => rw [List.nil_append, List.takeWhile_cons_of_neg (by simp [hq]), List.takeWhile_nil]
    | cons c t ih => rw [List.cons_append, List.takeWhile_cons, List.takeWhile_cons, ih]
  induction s with
  | nil =>
    rw [List.nil_append, List.dropWhile_cons_of_neg (by simp [hp])]
    exact hfield []
  | cons c s ih =>
    rw [List.cons_append, List.dropWhile_cons, List.dropWhile_cons]
    split
    · exact ih
    · exact hfield (c :: s)

theorem length_field_le (p q : UInt8 → Bool) (s : Bytes) :
    ((s.dropWhile p).takeWhile q).length ≤ s.length :=
  ((List.takeWhile_sublist q).trans (List.dropWhile_sublist p)).length_le

/-! ## Searching -/

/-- `strcspn`: the length of the part before the first byte of `reject`. -/
def strcspn (s reject : Bytes) : ℕ := (s.takeWhile fun c => !reject.contains c).length

/-- `strchr`: the string from the first `c` on, or a null pointer. -/
def strchr (s : Bytes) (c : UInt8) : Option Bytes :=
  match s.dropWhile (· != c) with
  | [] => none
  | found => some found

/-- `while (currPos[0] == ' ') currPos++`. -/
def skipSpaces (s : Bytes) : Bytes := s.dropWhile (· == 32)

theorem strchr_append {w : Bytes} {c : UInt8} (hw : c ∉ w) (rest : Bytes) :
    strchr (w ++ c :: rest) c = some (c :: rest) := by
  have hp : ∀ b ∈ w, (b != c) = true := by
    intro b hb
    simpa using fun h : b = c => hw (h ▸ hb)
  simp [strchr, List.dropWhile_append_of_pos hp]

theorem strchr_suffix {s found : Bytes} {c : UInt8} (h : strchr s c = some found) : found <:+ s := by
  unfold strchr at h
  split at h
  · cases h
  · obtain rfl := Option.some.inj h
    exact List.dropWhile_suffix _

theorem strcspn_append {w reject rest : Bytes} (hw : ∀ c ∈ w, c ∉ reject)
    (hr : Stops (fun c => !reject.contains c) rest) : strcspn (w ++ rest) reject = w.length := by
  rw [strcspn, takeWhile_append_of_stops _ hr]
  simpa using hw

/-! ## Comparison -/

/-- `strcmp`: the difference of the first two bytes that differ, as `unsigned char`. -/
def strcmp : Bytes → Bytes → ℤ
  | [], [] => 0
  | [], b :: _ => -b.toNat
  | a :: _, [] => a.toNat
  | a :: as, b :: bs => if a = b then strcmp as bs else a.toNat - b.toNat

/-- The byte values of a string. -/
def rank (s : Bytes) : List ℕ := s.map UInt8.toNat

theorem rank_injective : Function.Injective rank :=
  List.map_injective_iff.2 fun _ _ => UInt8.toNat.inj

theorem toNat_pos_of_not_mem {a : UInt8} {as : Bytes} (h : 0 ∉ a :: as) : 0 < a.toNat := by
  rcases Nat.eq_zero_or_pos a.toNat with h0 | h0
  · exact absurd (List.mem_cons.2 (.inl (UInt8.toNat.inj h0).symm)) h
  · exact h0

theorem strcmp_eq_zero {a b : Bytes} (ha : 0 ∉ a) (hb : 0 ∉ b) : strcmp a b = 0 ↔ a = b := by
  induction a generalizing b with
  | nil =>
    cases b with
    | nil => simp [strcmp]
    | cons b bs => simpa [strcmp] using (toNat_pos_of_not_mem hb).ne'
  | cons a as ih =>
    cases b with
    | nil => simpa [strcmp] using (toNat_pos_of_not_mem ha).ne'
    | cons b bs =>
      unfold strcmp
      split
      · next h =>
        rw [ih (fun h => ha (.tail _ h)) (fun h => hb (.tail _ h)), h]
        simp
      · next h =>
        have hne : a.toNat ≠ b.toNat := fun he => h (UInt8.toNat.inj he)
        simp only [List.cons.injEq, h, false_and, iff_false]
        omega

/-- **`strcmp` is the lexicographic order of the byte values.** -/
theorem strcmp_pos {a b : Bytes} (ha : 0 ∉ a) (hb : 0 ∉ b) :
    0 < strcmp a b ↔ rank b < rank a := by
  induction a generalizing b with
  | nil =>
    cases b with
    | nil => simp [strcmp]
    | cons b bs => simp [strcmp, rank]
  | cons a as ih =>
    cases b with
    | nil => simpa [strcmp, rank] using toNat_pos_of_not_mem ha
    | cons b bs =>
      rw [rank, rank, List.map_cons, List.map_cons, List.cons_lt_cons_iff]
      unfold strcmp
      split
      · next h =>
        rw [ih (fun h => ha (.tail _ h)) (fun h => hb (.tail _ h)), h]
        simp [rank]
      · next h =>
        have hne : b.toNat ≠ a.toNat := fun he => h (UInt8.toNat.inj he.symm)
        simp only [hne, false_and, or_false]
        omega

/-! ## Decimal text -/

/-- The byte of a character of the ASCII range. -/
def ofChar (c : Char) : UInt8 := c.toNat.toUInt8

/-- The text of a number. -/
def decimal (n : ℕ) : Bytes := (Nat.toDigits 10 n).map ofChar

/-- `%d`. -/
def decimalInt (z : ℤ) : Bytes := if z < 0 then 45 :: decimal z.natAbs else decimal z.natAbs

/-- The value of a string of digits. -/
def digitsValue (s : Bytes) : ℕ := s.foldl (fun n c => 10 * n + (c.toNat - 48)) 0

theorem toNat_ofChar {n : ℕ} {c : Char} (h : c ∈ Nat.toDigits 10 n) :
    (ofChar c).toNat = c.toNat ∧ 48 ≤ c.toNat ∧ c.toNat ≤ 57 := by
  have hd := Nat.isDigit_of_mem_toDigits (by decide) (by decide) h
  simp only [Char.isDigit, ge_iff_le, Bool.and_eq_true, decide_eq_true_eq,
    UInt32.le_iff_toNat_le] at hd
  have h1 : 48 ≤ c.toNat := hd.1
  have h2 : c.toNat ≤ 57 := hd.2
  simp only [ofChar, Nat.toUInt8_eq, UInt8.toNat_ofNat']
  omega

theorem isDigit_of_mem_decimal {n : ℕ} {c : UInt8} (h : c ∈ decimal n) : isDigit c = true := by
  obtain ⟨ch, hch, rfl⟩ := List.mem_map.1 h
  obtain ⟨heq, h1, h2⟩ := toNat_ofChar hch
  simp only [isDigit, decide_eq_true_eq, UInt8.le_iff_toNat_le, UInt8.reduceToNat, heq]
  exact ⟨h1, h2⟩

@[simp] theorem decimal_ne_nil (n : ℕ) : decimal n ≠ [] := by simp [decimal]

theorem length_decimal_le {n k : ℕ} (hk : 0 < k) (h : n < Nat.pow 10 k) : (decimal n).length ≤ k := by
  rw [decimal, List.length_map]
  exact (Nat.length_toDigits_le_iff (by decide) hk).2 h

theorem eq_or_isDigit_of_mem_decimalInt {z : ℤ} {c : UInt8} (h : c ∈ decimalInt z) :
    c = 45 ∨ isDigit c = true := by
  unfold decimalInt at h
  split at h
  · obtain rfl | h := List.mem_cons.1 h
    · exact .inl rfl
    · exact .inr (isDigit_of_mem_decimal h)
  · exact .inr (isDigit_of_mem_decimal h)

theorem decimalInt_ne_nil (z : ℤ) : decimalInt z ≠ [] := by
  unfold decimalInt
  split
  · exact List.cons_ne_nil _ _
  · exact decimal_ne_nil _

theorem stops_decimalInt (z : ℤ) : Stops isSpace (decimalInt z) := by
  cases hz : decimalInt z with
  | nil => exact stops_nil _
  | cons c t =>
    have hc : c ∈ decimalInt z := by simp [hz]
    obtain rfl | hdig := eq_or_isDigit_of_mem_decimalInt hc
    · exact (stops_cons ..).2 (by decide)
    · exact (stops_cons ..).2 (isSpace_of_isDigit hdig)

/-- The text of an `int`. -/
theorem length_decimalInt_le {z : ℤ} (hlo : -2147483648 ≤ z) (hhi : z < 2147483648) :
    (decimalInt z).length ≤ 11 := by
  have h10 : z.natAbs < Nat.pow 10 10 := Nat.lt_of_le_of_lt (show z.natAbs ≤ 2147483648 by omega)
    (by decide)
  have hlen := length_decimal_le (by decide) h10
  unfold decimalInt
  split
  · rw [List.length_cons]
    omega
  · omega

theorem digitsValue_decimal (n : ℕ) : digitsValue (decimal n) = n := by
  have hfold : ∀ (l : List Char) (k : ℕ), (∀ c ∈ l, (ofChar c).toNat = c.toNat) →
      (l.map ofChar).foldl (fun n c => 10 * n + (c.toNat - 48)) k = Nat.ofDigitChars 10 l k := by
    intro l
    induction l with
    | nil => intro k _; rfl
    | cons c l ih =>
      intro k h
      rw [List.map_cons, List.foldl_cons, ih _ fun d hd => h d (.tail _ hd), h c (by simp)]
      rfl
  calc digitsValue (decimal n) = Nat.ofDigitChars 10 (Nat.toDigits 10 n) 0 :=
        hfold _ 0 fun _ hc => (toNat_ofChar hc).1
    _ = n := Nat.ofDigitChars_ten_toDigits

end CString

end Dchat
