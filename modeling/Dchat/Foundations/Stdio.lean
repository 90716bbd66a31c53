import Dchat.Foundations.CString
import Dchat.Foundations.Fault

/-!
# `sscanf` and `snprintf`

The part of `stdio.h` that reads and writes strings, with what can go wrong in it as a `Fault`.

* `sscanf` interprets a list of `Directive`s, the parsed format. A conversion stores its text, NUL
  included, in an array whose size the directive carries; storing more is a `Fault`. The variables
  of the conversions that did not take place keep what they held before: `Scan.text` and `Scan.int`
  are given those contents. One lemma for each directive (`sscanf_str`, `sscanf_set`, `sscanf_int`)
  says what it does on a field followed by the rest of the input, and `sscanf_eq_overflow` when a
  field is too long for its array.
* `Cursor.snprintf` appends to a buffer at a cursor moved by the length asked for, as the return
  value of `snprintf` moves it. `Cursor.snprintf_of_fits` is the case in which nothing is cut.
-/

namespace Dchat

namespace Stdio

open CString

/-! ## `sscanf` -/

/-- A directive of a `sscanf` format. The conversions into arrays carry the size of the array. -/
inductive Directive
  /-- White space in the format. -/
  | white
  /-- Any other byte of the format. -/
  | lit (c : UInt8)
  /-- `%s` -/
  | str (size : ℕ)
  /-- `%[...]`, with the class of the bytes it accepts. -/
  | set (p : UInt8 → Bool) (size : ℕ)
  /-- `%d` -/
  | int

/-- What a conversion assigns. -/
inductive Value
  | text (s : Bytes)
  | int (z : ℤ)
  deriving DecidableEq

/-- The outcome of `sscanf`: the conversions that took place, and whether it stopped at the end of
the input. -/
structure Scan where
  assigned : List Value
  inputFailure : Bool
  deriving DecidableEq

namespace Scan

/-- One conversion before the others. -/
def cons (v : Value) (r : Scan) : Scan := { r with assigned := v :: r.assigned }

/-- The value returned: `EOF` if the input ended before the first conversion. -/
def ret (r : Scan) : ℤ := if r.inputFailure ∧ r.assigned = [] then -1 else r.assigned.length

/-- The string that the array of conversion `i` holds, if it held `before`. -/
def text (r : Scan) (i : ℕ) (before : Bytes) : Bytes :=
  match r.assigned[i]? with
  | some (.text s) => s
  | _ => before

/-- The number that the variable of conversion `i` holds, if it held `before`. -/
def int (r : Scan) (i : ℕ) (before : ℤ) : ℤ :=
  match r.assigned[i]? with
  | some (.int z) => z
  | _ => before

end Scan

/-- `EOF`. -/
def eof : ℤ := -1

/-- A conversion that took place is counted. -/
theorem Scan.ret_cons_ne_eof (v : Value) (r : Scan) : (r.cons v).ret ≠ eof := by
  rw [Scan.ret, if_neg (fun h => List.cons_ne_nil _ _ h.2), eof]
  omega

/-- An optional sign and digits: the number and what follows. -/
def scanDigits (s : Bytes) : Option (ℤ × Bytes) :=
  let negative := s.head? = some 45
  let t := if s.head? = some 45 ∨ s.head? = some 43 then s.tail else s
  let digits := t.takeWhile isDigit
  if digits = [] then none
  else some (if negative then -digitsValue digits else digitsValue digits, t.dropWhile isDigit)

/-- `sscanf`. -/
def sscanf : List Directive → Bytes → Except Fault Scan
  | [], _ => .ok ⟨[], false⟩
  | .white :: ds, s => sscanf ds (s.dropWhile isSpace)
  | .lit _ :: _, [] => .ok ⟨[], true⟩
  | .lit c :: ds, b :: s => if b = c then sscanf ds s else .ok ⟨[], false⟩
  | .str size :: ds, s =>
    let t := s.dropWhile isSpace
    let word := t.takeWhile fun c => !isSpace c
    if word = [] then .ok ⟨[], true⟩
    else if size ≤ word.length then .error .bufferOverflow
    else (sscanf ds (t.dropWhile fun c => !isSpace c)).map (Scan.cons (.text word))
  | .set p size :: ds, s =>
    let word := s.takeWhile p
    if s = [] then .ok ⟨[], true⟩
    else if word = [] then .ok ⟨[], false⟩
    else if size ≤ word.length then .error .bufferOverflow
    else (sscanf ds (s.dropWhile p)).map (Scan.cons (.text word))
  | .int :: ds, s =>
    let t := s.dropWhile isSpace
    if t = [] then .ok ⟨[], true⟩
    else
      match scanDigits t with
      | none => .ok ⟨[], false⟩
      | some (z, rest) =>
        if -2147483648 ≤ z ∧ z < 2147483648 then (sscanf ds rest).map (Scan.cons (.int z))
        else .error .integerOverflow

variable {ds : List Directive}

theorem sscanf_cons_white (ds : List Directive) (s : Bytes) :
    sscanf (.white :: ds) s = sscanf ds (s.dropWhile isSpace) := rfl

theorem sscanf_cons_lit (ds : List Directive) (c b : UInt8) (s : Bytes) :
    sscanf (.lit c :: ds) (b :: s) = if b = c then sscanf ds s else .ok ⟨[], false⟩ := rfl

theorem sscanf_cons_str (ds : List Directive) (size : ℕ) (s : Bytes) :
    sscanf (.str size :: ds) s =
      if (s.dropWhile isSpace).takeWhile (fun c => !isSpace c) = [] then .ok ⟨[], true⟩
      else if size ≤ ((s.dropWhile isSpace).takeWhile fun c => !isSpace c).length then
        .error .bufferOverflow
      else (sscanf ds ((s.dropWhile isSpace).dropWhile fun c => !isSpace c)).map
        (Scan.cons (.text ((s.dropWhile isSpace).takeWhile fun c => !isSpace c))) := rfl

theorem sscanf_cons_set (ds : List Directive) (p : UInt8 → Bool) (size : ℕ) (s : Bytes) :
    sscanf (.set p size :: ds) s =
      if s = [] then .ok ⟨[], true⟩
      else if s.takeWhile p = [] then .ok ⟨[], false⟩
      else if size ≤ (s.takeWhile p).length then .error .bufferOverflow
      else (sscanf ds (s.dropWhile p)).map (Scan.cons (.text (s.takeWhile p))) := rfl

theorem sscanf_white {blank rest : Bytes} (hb : blank.all isSpace = true)
    (hr : Stops isSpace rest) : sscanf (.white :: ds) (blank ++ rest) = sscanf ds rest := by
  rw [sscanf_cons_white, dropWhile_append_of_stops (List.all_eq_true.1 hb) hr]

@[simp] theorem sscanf_lit (c : UInt8) (rest : Bytes) :
    sscanf (.lit c :: ds) (c :: rest) = sscanf ds rest := if_pos rfl

theorem sscanf_str {size : ℕ} {word rest : Bytes} (hne : word ≠ [])
    (hw : (word.all fun c => !isSpace c) = true) (hlen : word.length < size)
    (hr : Stops (fun c => !isSpace c) rest) :
    sscanf (.str size :: ds) (word ++ rest) = (sscanf ds rest).map (Scan.cons (.text word)) := by
  have hw' : ∀ c ∈ word, (!isSpace c) = true := List.all_eq_true.1 hw
  have hskip := dropWhile_word hne hw rest
  rw [sscanf_cons_str]
  simp only [hskip, takeWhile_append_of_stops hw' hr, dropWhile_append_of_stops hw' hr]
  rw [if_neg hne, if_neg (not_le.2 hlen)]

theorem sscanf_set {p : UInt8 → Bool} {size : ℕ} {word rest : Bytes} (hne : word ≠ [])
    (hw : ∀ c ∈ word, p c = true) (hlen : word.length < size) (hr : Stops p rest) :
    sscanf (.set p size :: ds) (word ++ rest) =
      (sscanf ds rest).map (Scan.cons (.text word)) := by
  rw [sscanf_cons_set]
  simp only [takeWhile_append_of_stops hw hr, dropWhile_append_of_stops hw hr]
  rw [if_neg (by simp [hne]), if_neg hne, if_neg (not_le.2 hlen)]

/-- A last field that fits its array is read without a fault. -/
theorem sscanf_last {p : UInt8 → Bool} {size : ℕ} {s : Bytes} (h : s.length < size) :
    ∃ r, sscanf [.white, .set p size] s = .ok r ∧
      r.assigned = if (s.dropWhile isSpace).takeWhile p = [] then []
        else [.text ((s.dropWhile isSpace).takeWhile p)] := by
  have hskip := (List.dropWhile_suffix isSpace (l := s)).length_le
  have hpre : (s.dropWhile isSpace).takeWhile p <+: s.dropWhile isSpace := List.takeWhile_prefix _
  have htake := hpre.length_le
  rw [sscanf_cons_white, sscanf_cons_set]
  by_cases hnil : s.dropWhile isSpace = []
  · exact ⟨_, if_pos hnil, by rw [hnil]; rfl⟩
  by_cases hword : (s.dropWhile isSpace).takeWhile p = []
  · rw [if_neg hnil, if_pos hword]
    exact ⟨_, rfl, (if_pos hword).symm⟩
  · rw [if_neg hnil, if_neg hword, if_neg (by omega)]
    exact ⟨_, rfl, (if_neg hword).symm⟩

/-- A `%[...]` that is followed by enough conversions took place. -/
theorem sscanf_set_eq_ok {p : UInt8 → Bool} {size : ℕ} {s : Bytes} {r : Scan}
    (h : sscanf (.set p size :: ds) s = .ok r) (hr : r.assigned ≠ []) :
    s.takeWhile p ≠ [] ∧ (s.takeWhile p).length < size ∧
      ∃ r', sscanf ds (s.dropWhile p) = .ok r' ∧ r = r'.cons (.text (s.takeWhile p)) := by
  rw [sscanf_cons_set] at h
  split at h
  · obtain rfl := Except.ok.inj h
    exact absurd rfl hr
  split at h
  · obtain rfl := Except.ok.inj h
    exact absurd rfl hr
  next hword =>
  split at h
  · cases h
  next hlen =>
  cases hrest : sscanf ds (s.dropWhile p) with
  | error e =>
    rw [hrest] at h
    cases h
  | ok r' =>
    rw [hrest] at h
    exact ⟨hword, not_le.1 hlen, r', rfl, (Except.ok.inj h).symm⟩

/-- A byte of the format that is followed by enough conversions was matched. -/
theorem sscanf_lit_eq_ok {c : UInt8} {s : Bytes} {r : Scan}
    (h : sscanf (.lit c :: ds) s = .ok r) (hr : r.assigned ≠ []) :
    ∃ t, s = c :: t ∧ sscanf ds t = .ok r := by
  cases s with
  | nil =>
    obtain rfl := Except.ok.inj h
    exact absurd rfl hr
  | cons b t =>
    rw [sscanf_cons_lit] at h
    split at h
    · next hb => exact ⟨t, by rw [hb], h⟩
    · obtain rfl := Except.ok.inj h
      exact absurd rfl hr

/-- Every field that the conversions of a format read fits its array, NUL included. -/
def FieldsFit : List Directive → Bytes → Prop
  | [], _ => True
  | .white :: ds, s => FieldsFit ds (s.dropWhile isSpace)
  | .lit _ :: _, [] => True
  | .lit c :: ds, b :: s => b = c → FieldsFit ds s
  | .str size :: ds, s =>
    let t := s.dropWhile isSpace
    let word := t.takeWhile fun c => !isSpace c
    word ≠ [] → word.length < size ∧ FieldsFit ds (t.dropWhile fun c => !isSpace c)
  | .set p size :: ds, s =>
    let word := s.takeWhile p
    word ≠ [] → word.length < size ∧ FieldsFit ds (s.dropWhile p)
  | .int :: ds, s =>
    ∀ z rest, scanDigits (s.dropWhile isSpace) = some (z, rest) →
      -2147483648 ≤ z ∧ z < 2147483648 → FieldsFit ds rest

theorem fieldsFit_cons_str {size : ℕ} {s : Bytes} :
    FieldsFit (.str size :: ds) s ↔
      ((s.dropWhile isSpace).takeWhile (fun c => !isSpace c) ≠ [] →
        ((s.dropWhile isSpace).takeWhile fun c => !isSpace c).length < size ∧
          FieldsFit ds ((s.dropWhile isSpace).dropWhile fun c => !isSpace c)) := Iff.rfl

theorem fieldsFit_cons_set {p : UInt8 → Bool} {size : ℕ} {s : Bytes} :
    FieldsFit (.set p size :: ds) s ↔ (s.takeWhile p ≠ [] →
      (s.takeWhile p).length < size ∧ FieldsFit ds (s.dropWhile p)) := Iff.rfl

theorem map_cons_eq_overflow {x : Except Fault Scan} {v : Value} :
    x.map (Scan.cons v) = .error .bufferOverflow ↔ x = .error .bufferOverflow := by
  cases x <;> simp [Except.map]

/-- **`sscanf` writes behind an array** exactly if a field does not fit it. -/
theorem sscanf_eq_overflow {s : Bytes} :
    sscanf ds s = .error .bufferOverflow ↔ ¬ FieldsFit ds s := by
  induction ds generalizing s with
  | nil => exact iff_of_false (fun h => by cases h) (not_not.2 trivial)
  | cons d ds ih =>
    cases d with
    | white => exact ih
    | lit c =>
      cases s with
      | nil => exact iff_of_false (fun h => by cases h) (not_not.2 trivial)
      | cons b s =>
        rw [sscanf_cons_lit]
        change _ ↔ ¬ (b = c → FieldsFit ds s)
        by_cases hb : b = c
        · rw [if_pos hb, ih]
          simp [hb]
        · rw [if_neg hb]
          simp [hb]
    | str size =>
      rw [sscanf_cons_str, fieldsFit_cons_str]
      generalize (s.dropWhile isSpace).takeWhile (fun c => !isSpace c) = word
      by_cases hword : word = []
      · simp [hword]
      · rw [if_neg hword]
        by_cases hlen : size ≤ word.length
        · simp [hword, hlen, not_lt.2 hlen]
        · rw [if_neg hlen, map_cons_eq_overflow, ih]
          simp [hword, not_le.1 hlen]
    | set p size =>
      rw [sscanf_cons_set, fieldsFit_cons_set]
      by_cases hs : s = []
      · simp [hs]
      rw [if_neg hs]
      generalize s.takeWhile p = word
      by_cases hword : word = []
      · simp [hword]
      · rw [if_neg hword]
        by_cases hlen : size ≤ word.length
        · simp [hword, hlen, not_lt.2 hlen]
        · rw [if_neg hlen, map_cons_eq_overflow, ih]
          simp [hword, not_le.1 hlen]
    | int =>
      rw [sscanf, FieldsFit]
      by_cases ht : s.dropWhile isSpace = []
      · simp [ht, scanDigits]
      rw [if_neg ht]
      cases hdigits : scanDigits (s.dropWhile isSpace) with
      | none => simp
      | some p =>
        obtain ⟨z, rest⟩ := p
        dsimp only
        split
        · next hz =>
          rw [map_cons_eq_overflow, ih]
          simp [hz]
        · next hz =>
          refine iff_of_false (by simp) (not_not.2 fun z' rest' he hz' => ?_)
          obtain ⟨rfl, rfl⟩ := Prod.mk.inj (Option.some.inj he)
          exact absurd hz' hz

instance (ds : List Directive) (s : Bytes) : Decidable (FieldsFit ds s) :=
  decidable_of_iff (sscanf ds s ≠ .error .bufferOverflow) (by rw [ne_eq, sscanf_eq_overflow, not_not])

/-- The array of a conversion has room for `n` bytes and a NUL. -/
def Directive.Holds (n : ℕ) : Directive → Prop
  | .str size | .set _ size => n < size
  | .white | .lit _ | .int => True

theorem Directive.Holds.mono {m n : ℕ} {d : Directive} (h : d.Holds n) (hle : m ≤ n) : d.Holds m := by
  cases d with
  | str size | set p size => exact Nat.lt_of_le_of_lt hle h
  | white | lit c | int => trivial

theorem scanDigits_suffix {s rest : Bytes} {z : ℤ} (h : scanDigits s = some (z, rest)) :
    rest <:+ s := by
  have hsign : (if s.head? = some 45 ∨ s.head? = some 43 then s.tail else s) <:+ s := by
    split
    · exact List.tail_suffix s
    · exact List.suffix_rfl
  obtain ⟨-, h⟩ := Option.ite_none_left_eq_some.1 h
  obtain ⟨-, rfl⟩ := Prod.mk.inj (Option.some.inj h)
  exact (List.dropWhile_suffix _).trans hsign

/-- **What is scanned is part of the input.** -/
theorem subset_of_sscanf {s t : Bytes} {r : Scan} (h : sscanf ds s = .ok r)
    (ht : .text t ∈ r.assigned) : t ⊆ s := by
  induction ds generalizing s r with
  | nil =>
    obtain rfl := Except.ok.inj h
    cases ht
  | cons d ds ih =>
    -- a conversion, and what is read after it
    have hcons : ∀ {v : Value} {rest : Bytes}, (sscanf ds rest).map (Scan.cons v) = .ok r →
        rest ⊆ s → (∀ u, v = .text u → u ⊆ s) → t ⊆ s := by
      intro v rest hrest hsub hv
      cases hr : sscanf ds rest with
      | error e =>
        rw [hr] at hrest
        cases hrest
      | ok r' =>
        rw [hr] at hrest
        obtain rfl := Except.ok.inj hrest
        obtain ht | ht := List.mem_cons.1 ht
        · exact hv t ht.symm
        · exact List.Subset.trans (ih hr ht) hsub
    have hstop : ∀ {b : Bool}, (Except.ok ⟨[], b⟩ : Except Fault Scan) = .ok r → t ⊆ s := by
      intro b hr
      obtain rfl := Except.ok.inj hr
      cases ht
    have hskip : s.dropWhile isSpace ⊆ s := (List.dropWhile_suffix _).subset
    cases d with
    | white => exact List.Subset.trans (ih h ht) hskip
    | lit c =>
      cases s with
      | nil => exact hstop h
      | cons b s =>
        rw [sscanf_cons_lit] at h
        split at h
        · exact List.Subset.trans (ih h ht) (List.subset_cons_self b s)
        · exact hstop h
    | str size =>
      rw [sscanf_cons_str] at h
      split at h
      · exact hstop h
      split at h
      · cases h
      · refine hcons h (List.Subset.trans (List.dropWhile_suffix _).subset hskip) fun u hu => ?_
        obtain rfl := Value.text.inj hu
        exact List.Subset.trans (List.takeWhile_prefix _).subset hskip
    | set p size =>
      rw [sscanf_cons_set] at h
      split at h
      · exact hstop h
      split at h
      · exact hstop h
      split at h
      · cases h
      · refine hcons h (List.dropWhile_suffix _).subset fun u hu => ?_
        obtain rfl := Value.text.inj hu
        exact (List.takeWhile_prefix _).subset
    | int =>
      rw [sscanf] at h
      split at h
      · exact hstop h
      split at h
      · exact hstop h
      next z rest hdigits =>
      split at h
      · exact hcons h (List.Subset.trans (scanDigits_suffix hdigits).subset hskip)
          fun u hu => (by cases hu)
      · cases h

/-- The string that an array holds after `sscanf` is part of the input, or what it held before. -/
theorem Scan.text_subset {s : Bytes} {r : Scan} (h : sscanf ds s = .ok r) (i : ℕ) (before : Bytes) :
    r.text i before ⊆ s ∨ r.text i before = before := by
  unfold Scan.text
  split
  · next t ht => exact .inl (subset_of_sscanf h (List.mem_of_getElem? ht))
  · exact .inr rfl

/-- **Everything fits** if each array has room for the whole input. -/
theorem fieldsFit_of_holds {s : Bytes} (h : ∀ d ∈ ds, d.Holds s.length) : FieldsFit ds s := by
  induction ds generalizing s with
  | nil => trivial
  | cons d ds ih =>
    have hrest : ∀ {t : Bytes}, t <:+ s → FieldsFit ds t := fun ht =>
      ih fun d hd => (h d (.tail _ hd)).mono ht.length_le
    have hd := h d List.mem_cons_self
    cases d with
    | white => exact hrest (List.dropWhile_suffix _)
    | lit c =>
      cases s with
      | nil => trivial
      | cons b s => exact fun _ => hrest (List.suffix_cons b s)
    | str size =>
      intro _
      exact ⟨Nat.lt_of_le_of_lt (length_field_le _ _ s) hd,
        hrest ((List.dropWhile_suffix _).trans (List.dropWhile_suffix _))⟩
    | set p size =>
      intro _
      exact ⟨Nat.lt_of_le_of_lt (List.takeWhile_prefix p).length_le hd,
        hrest (List.dropWhile_suffix _)⟩
    | int =>
      intro z rest hdigits _
      exact hrest ((scanDigits_suffix hdigits).trans (List.dropWhile_suffix _))

theorem fieldsFit_str {size : ℕ} {word rest : Bytes} (hne : word ≠ [])
    (hw : (word.all fun c => !isSpace c) = true) (hr : Stops (fun c => !isSpace c) rest) :
    FieldsFit (.str size :: ds) (word ++ rest) ↔ word.length < size ∧ FieldsFit ds rest := by
  have hw' : ∀ c ∈ word, (!isSpace c) = true := List.all_eq_true.1 hw
  have hskip := dropWhile_word hne hw rest
  rw [fieldsFit_cons_str]
  simp only [hskip, takeWhile_append_of_stops hw' hr, dropWhile_append_of_stops hw' hr]
  exact ⟨fun h => h hne, fun h _ => h⟩

theorem fieldsFit_set {p : UInt8 → Bool} {size : ℕ} {word rest : Bytes} (hne : word ≠ [])
    (hw : ∀ c ∈ word, p c = true) (hr : Stops p rest) :
    FieldsFit (.set p size :: ds) (word ++ rest) ↔ word.length < size ∧ FieldsFit ds rest := by
  rw [fieldsFit_cons_set]
  simp only [takeWhile_append_of_stops hw hr, dropWhile_append_of_stops hw hr]
  exact ⟨fun h => h hne, fun h _ => h⟩

/-- A format without `%d` whose fields fit is read without a fault. -/
theorem exists_sscanf_of_fieldsFit {s : Bytes} (hint : Directive.int ∉ ds) (h : FieldsFit ds s) :
    ∃ r, sscanf ds s = .ok r := by
  induction ds generalizing s with
  | nil => exact ⟨_, rfl⟩
  | cons d ds ih =>
    have hrest : ∀ {s}, FieldsFit ds s → ∃ r, sscanf ds s = .ok r :=
      fun h => ih (fun hmem => hint (.tail _ hmem)) h
    cases d with
    | white => exact hrest h
    | lit c =>
      cases s with
      | nil => exact ⟨_, rfl⟩
      | cons b s =>
        rw [sscanf_cons_lit]
        split
        · next hb => exact hrest (h hb)
        · exact ⟨_, rfl⟩
    | str size =>
      rw [sscanf_cons_str]
      split
      · exact ⟨_, rfl⟩
      · next hword =>
        obtain ⟨hlen, hfits⟩ := h hword
        obtain ⟨r, hr⟩ := hrest hfits
        rw [if_neg (not_le.2 hlen), hr]
        exact ⟨_, rfl⟩
    | set p size =>
      rw [sscanf_cons_set]
      split
      · exact ⟨_, rfl⟩
      split
      · exact ⟨_, rfl⟩
      · next hword =>
        obtain ⟨hlen, hfits⟩ := h hword
        obtain ⟨r, hr⟩ := hrest hfits
        rw [if_neg (not_le.2 hlen), hr]
        exact ⟨_, rfl⟩
    | int => exact absurd List.mem_cons_self hint

/-- The same conversion into an array of `n` bytes. -/
def Directive.withRoom (n : ℕ) : Directive → Directive
  | .str _ => .str n
  | .set p _ => .set p n
  | .white => .white
  | .lit c => .lit c
  | .int => .int

theorem fieldsFit_withRoom (ds : List Directive) {s : Bytes} {n : ℕ} (h : s.length < n) :
    FieldsFit (ds.map (Directive.withRoom n)) s := by
  refine fieldsFit_of_holds fun d hd => ?_
  obtain ⟨d, -, rfl⟩ := List.mem_map.1 hd
  cases d with
  | str size | set p size => exact h
  | white | lit c | int => trivial

/-- More room changes nothing for fields that fit. -/
theorem sscanf_withRoom {s : Bytes} {n : ℕ} (hn : s.length < n) (h : FieldsFit ds s) :
    sscanf (ds.map (Directive.withRoom n)) s = sscanf ds s := by
  induction ds generalizing s with
  | nil => rfl
  | cons d ds ih =>
    have hrest : ∀ {t : Bytes}, t <:+ s → FieldsFit ds t →
        sscanf (ds.map (Directive.withRoom n)) t = sscanf ds t := fun ht hfit =>
      ih (Nat.lt_of_le_of_lt ht.length_le hn) hfit
    cases d with
    | white => exact hrest (List.dropWhile_suffix _) h
    | lit c =>
      cases s with
      | nil => rfl
      | cons b s =>
        rw [List.map_cons, Directive.withRoom, sscanf_cons_lit, sscanf_cons_lit]
        split
        · next hb => exact hrest (List.suffix_cons b s) (h hb)
        · rfl
    | str size =>
      rw [List.map_cons, Directive.withRoom, sscanf_cons_str, sscanf_cons_str]
      split
      · rfl
      · next hword =>
        obtain ⟨hlen, hfits⟩ := h hword
        have hfield := length_field_le isSpace (fun c => !isSpace c) s
        rw [if_neg (by omega), if_neg (not_le.2 hlen),
          hrest ((List.dropWhile_suffix _).trans (List.dropWhile_suffix _)) hfits]
    | set p size =>
      rw [List.map_cons, Directive.withRoom, sscanf_cons_set, sscanf_cons_set]
      split
      · rfl
      split
      · rfl
      · next hword =>
        obtain ⟨hlen, hfits⟩ := h hword
        have hfield := (List.takeWhile_prefix p (l := s)).length_le
        rw [if_neg (by omega), if_neg (not_le.2 hlen), hrest (List.dropWhile_suffix _) hfits]
    | int =>
      rw [List.map_cons, Directive.withRoom, sscanf, sscanf]
      split
      · rfl
      cases hdigits : scanDigits (s.dropWhile isSpace) with
      | none => rfl
      | some d =>
        obtain ⟨z, rest⟩ := d
        dsimp only
        split
        · next hz =>
          rw [hrest ((scanDigits_suffix hdigits).trans (List.dropWhile_suffix _))
            (h z rest hdigits hz)]
        · rfl

theorem scanDigits_decimal (n : ℕ) {rest : Bytes} (hr : Stops isDigit rest) :
    scanDigits (decimal n ++ rest) = some ((n : ℤ), rest) := by
  have hd : ∀ c ∈ decimal n, isDigit c = true := fun c hc => isDigit_of_mem_decimal hc
  have h45 : (decimal n ++ rest).head? ≠ some 45 ∧ (decimal n ++ rest).head? ≠ some 43 := by
    have hne := decimal_ne_nil n
    cases hdec : decimal n with
    | nil => exact absurd hdec hne
    | cons c t =>
      have hc : isDigit c = true := hd c (by simp [hdec])
      constructor <;> (rintro h; obtain rfl := Option.some.inj h; revert hc; decide)
  simp only [scanDigits, h45, or_self, if_false, takeWhile_append_of_stops hd hr,
    dropWhile_append_of_stops hd hr, decimal_ne_nil, digitsValue_decimal]

theorem scanDigits_decimalInt (z : ℤ) {rest : Bytes} (hr : Stops isDigit rest) :
    scanDigits (decimalInt z ++ rest) = some (z, rest) := by
  unfold decimalInt
  split
  · next hz =>
    have h := scanDigits_decimal z.natAbs hr
    have hd : ∀ c ∈ decimal z.natAbs, isDigit c = true := fun c hc => isDigit_of_mem_decimal hc
    simp only [scanDigits, List.cons_append, List.head?_cons, List.tail_cons, true_or, if_true,
      takeWhile_append_of_stops hd hr, dropWhile_append_of_stops hd hr, decimal_ne_nil, if_false,
      digitsValue_decimal]
    have : -((z.natAbs : ℕ) : ℤ) = z := by omega
    rw [this]
  · next hz =>
    rw [scanDigits_decimal z.natAbs hr]
    have : ((z.natAbs : ℕ) : ℤ) = z := by omega
    rw [this]

theorem sscanf_int {z : ℤ} {rest : Bytes} (hlo : -2147483648 ≤ z) (hhi : z < 2147483648)
    (hr : Stops isDigit rest) :
    sscanf (.int :: ds) (decimalInt z ++ rest) = (sscanf ds rest).map (Scan.cons (.int z)) := by
  have hne := decimalInt_ne_nil z
  have hskip : (decimalInt z ++ rest).dropWhile isSpace = decimalInt z ++ rest :=
    dropWhile_of_stops ((stops_append hne rest).2 (stops_decimalInt z))
  rw [sscanf]
  simp only [hskip, scanDigits_decimalInt z hr]
  rw [if_neg (by simp [hne]), if_pos ⟨hlo, hhi⟩]

/-! ## `snprintf` -/

/-- `snprintf` into an array of `size` bytes. -/
def snprintf (size : ℕ) (text : Bytes) : Bytes := text.take (size - 1)

theorem snprintf_of_lt {size : ℕ} {text : Bytes} (h : text.length < size) :
    snprintf size text = text := List.take_of_length_le (by omega)

/-- The part that fits is written, and then as much as there is room for. -/
theorem snprintf_append {size : ℕ} {a : Bytes} (b : Bytes) (h : a.length < size) :
    snprintf size (a ++ b) = a ++ b.take (size - 1 - a.length) := by
  rw [snprintf, List.take_append, List.take_of_length_le (by omega)]

/-- A buffer being filled: the string in it, and the index where the next piece goes. -/
structure Cursor where
  text : Bytes
  pos : ℕ
  deriving DecidableEq

namespace Cursor

/-- The buffer before anything is written. -/
def empty : Cursor := ⟨[], 0⟩

/-- `pos += snprintf(buffer + pos, size, ...)` in a buffer of `capacity` bytes: at most `size - 1`
bytes of `piece` and a NUL are stored, and the cursor advances by the length of `piece`. `size` is
passed as a `size_t`, so that a negative one sets no limit. A string that was cut ends before the
cursor, and what is stored after it is not part of it. -/
def snprintf (capacity : ℕ) (size : ℤ) (c : Cursor) (piece : Bytes) : Except Fault Cursor :=
  let written := if size < 0 then piece else piece.take (size.toNat - 1)
  let text := if c.text.length < c.pos then c.text else c.text.take c.pos ++ written
  if size = 0 then .ok ⟨c.text, c.pos + piece.length⟩
  else if c.pos + written.length + 1 ≤ capacity then .ok ⟨text, c.pos + piece.length⟩
  else .error .bufferOverflow

/-- The buffer holds `text` and nothing of it was cut. -/
def full (text : Bytes) : Cursor := ⟨text, text.length⟩

/-- **A piece that fits is appended.** -/
theorem snprintf_of_fits {capacity : ℕ} {size : ℤ} {text piece : Bytes}
    (hsize : (piece.length : ℤ) < size) (h : text.length + piece.length < capacity) :
    (full text).snprintf capacity size piece = .ok (full (text ++ piece)) := by
  have htake : piece.take (size.toNat - 1) = piece := List.take_of_length_le (by omega)
  have h1 : ¬ size < 0 := by omega
  have h2 : size ≠ 0 := by omega
  simp only [snprintf, full, htake, h1, h2, if_false, lt_irrefl, List.take_length,
    List.length_append]
  rw [if_pos (by omega)]

/-- Behind the end of the buffer nothing can be written. -/
theorem snprintf_of_capacity_le {capacity : ℕ} {size : ℤ} {c : Cursor} {piece : Bytes}
    (hsize : size ≠ 0) (h : capacity ≤ c.pos) :
    c.snprintf capacity size piece = .error .bufferOverflow := by
  simp only [snprintf, hsize, if_false]
  rw [if_neg (by omega)]

/-- The state of a buffer of `capacity` bytes into which `text` was written piece by piece, each
piece with the whole capacity as its size: the text, if it fits, and otherwise an overflow, or a
cut piece with the cursor behind the end. -/
def Renders (capacity : ℕ) (r : Except Fault Cursor) (text : Bytes) : Prop :=
  if text.length < capacity then r = .ok (full text)
  else r = .error .bufferOverflow ∨ ∃ c, r = .ok c ∧ capacity ≤ c.pos

variable {capacity : ℕ} {r : Except Fault Cursor} {text : Bytes}

theorem renders_empty (hc : 0 < capacity) : Renders capacity (.ok empty) [] := by
  rw [Renders, if_pos (by simpa using hc)]
  rfl

/-- A piece after a text that fits: with a part of the text before it, it is not cut. -/
theorem snprintf_full (piece : Bytes) (h : text.length < capacity) :
    (full text).snprintf capacity capacity piece =
      if text.length + piece.length < capacity then .ok (full (text ++ piece))
      else if text = [] then .ok ⟨piece.take (capacity - 1), piece.length⟩
      else .error .bufferOverflow := by
  split
  · next hfits => exact snprintf_of_fits (by omega) hfits
  · next hfits =>
    have h1 : ¬ (capacity : ℤ) < 0 := by omega
    have h2 : (capacity : ℤ) ≠ 0 := by omega
    simp only [snprintf, full, h1, h2, if_false, Int.toNat_natCast, List.length_take, lt_irrefl]
    by_cases ht : text = []
    · subst ht
      simp only [List.length_nil] at hfits ⊢
      rw [if_pos (by omega)]
      simp
    · have hpos : 0 < text.length := List.length_pos_iff.2 ht
      rw [if_neg ht, if_neg (by omega)]

/-- **One more piece.** -/
theorem Renders.snprintf (h : Renders capacity r text) (hc : 0 < capacity) (piece : Bytes) :
    Renders capacity (r >>= fun c => c.snprintf capacity capacity piece) (text ++ piece) := by
  unfold Renders at h
  split at h
  · next hlt =>
    subst h
    rw [Fault.ok_bind, snprintf_full piece hlt, Renders, List.length_append]
    split
    · rfl
    · next hfits =>
      split
      · next ht =>
        simp only [ht, List.length_nil, Nat.zero_add, not_lt] at hfits
        exact .inr ⟨_, rfl, hfits⟩
      · exact .inl rfl
  · next hlt =>
    rw [Renders, List.length_append, if_neg (by omega)]
    obtain rfl | ⟨c, rfl, hpos⟩ := h
    · exact .inl rfl
    · exact .inl (snprintf_of_capacity_le (by omega) hpos)

/-- **The last piece**, after a text that is not empty: the whole text, or an overflow. -/
theorem Renders.snprintf_last (h : Renders capacity r text) (hc : 0 < capacity) (hne : text ≠ [])
    (piece : Bytes) :
    (r >>= fun c => c.snprintf capacity capacity piece) =
      if (text ++ piece).length < capacity then .ok (full (text ++ piece))
      else .error .bufferOverflow := by
  rw [List.length_append]
  unfold Renders at h
  split at h
  · next hlt =>
    subst h
    rw [Fault.ok_bind, snprintf_full piece hlt, if_neg hne]
  · next hlt =>
    rw [if_neg (by omega)]
    obtain rfl | ⟨c, rfl, hpos⟩ := h
    · rfl
    · exact snprintf_of_capacity_le (by omega) hpos

end Cursor

end Stdio

end Dchat
