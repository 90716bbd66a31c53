import Dchat.Foundations.CString
import Mathlib.Data.List.DropRight
import Mathlib.Data.List.Infix

/-!
# Strings and readers of Java

The methods of `String` and `BufferedReader` that look at a string by its characters. A string is
the list of its characters, and a reader makes one character of each byte.

* `readLine_line` reads a line that contains no line terminator, `readLine_eq` says what is read of
  any other.
* `fields_append` splits at a blank, and `indexOf_append` finds the first occurrence.
-/

namespace Dchat.Java

/-! ## The methods -/

/-- `String.startsWith`. -/
def startsWith (s pre : Bytes) : Bool := pre.isPrefixOf s

/-- `String.endsWith`. -/
def endsWith (s suf : Bytes) : Bool := suf.isSuffixOf s

/-- `String.indexOf`, `none` for -1. -/
def indexOf (pattern : Bytes) : Bytes → Option ℕ
  | [] => if pattern = [] then some 0 else none
  | c :: s => if startsWith (c :: s) pattern then some 0 else (indexOf pattern s).map (· + 1)

/-- The parts of a string between its blanks. -/
def fields : Bytes → List Bytes
  | [] => [[]]
  | c :: s =>
    if c = 32 then [] :: fields s
    else
      match fields s with
      | [] => [[c]]
      | w :: ws => (c :: w) :: ws

/-- `String.split(" ")`: empty parts at the end are left out, and a string without a blank is its
only part. -/
def split (s : Bytes) : List Bytes :=
  if 32 ∈ s then (fields s).rdropWhile (· = []) else [s]

/-- What ends a line for `readLine`. -/
def isTerminator (c : UInt8) : Bool := c == 10 || c == 13

/-- The input behind a line terminator: a line feed, a carriage return, or both. -/
def skipTerminator : Bytes → Bytes
  | 13 :: 10 :: s => s
  | _ :: s => s
  | [] => []

/-- `BufferedReader.readLine` on the rest of the input: the line and what follows it, `none` at the
end of the input. -/
def readLine (input : Bytes) : Option (Bytes × Bytes) :=
  if input = [] then none
  else some (input.takeWhile fun c => !isTerminator c,
    skipTerminator (input.dropWhile fun c => !isTerminator c))

/-! ## Lines -/

/-- A line is read up to its line feed. -/
theorem readLine_line {line : Bytes} (h : ∀ c ∈ line, isTerminator c = false) (rest : Bytes) :
    readLine (line ++ 10 :: rest) = some (line, rest) := by
  have hline : ∀ c ∈ line, (!isTerminator c) = true := by
    intro c hc
    rw [h c hc]
    rfl
  have hstop : CString.Stops (fun c => !isTerminator c) (10 :: rest) :=
    (CString.stops_cons ..).2 (by decide)
  rw [readLine, if_neg (by simp), CString.takeWhile_append_of_stops hline hstop,
    CString.dropWhile_append_of_stops hline hstop]
  rfl

/-- Of a line with a carriage return the part before it is read. -/
theorem readLine_eq (line rest : Bytes) (h10 : 10 ∉ line) :
    ∃ rest', readLine (line ++ 10 :: rest) = some (line.takeWhile (· != 13), rest') := by
  have hcut : (line ++ 10 :: rest).takeWhile (fun c => !isTerminator c) =
      line.takeWhile (· != 13) := by
    induction line with
    | nil => rfl
    | cons c line ih =>
      have hc : c ≠ 10 := fun h => h10 (by simp [h])
      rw [List.cons_append, List.takeWhile_cons, List.takeWhile_cons,
        ih fun h => h10 (.tail _ h)]
      simp [isTerminator, hc]
  exact ⟨_, by rw [readLine, if_neg (by simp), hcut]⟩

/-! ## Searching and splitting -/

theorem startsWith_iff {s pre : Bytes} : startsWith s pre = true ↔ pre <+: s :=
  List.isPrefixOf_iff_prefix

theorem endsWith_iff {s suf : Bytes} : endsWith s suf = true ↔ suf <:+ s :=
  List.isSuffixOf_iff_suffix

/-- What is found occurs. -/
theorem infix_of_indexOf {pattern s : Bytes} {k : ℕ} (h : indexOf pattern s = some k) :
    pattern <:+: s := by
  induction s generalizing k with
  | nil =>
    rw [indexOf] at h
    split at h
    · next hp =>
      subst hp
      exact List.nil_infix
    · cases h
  | cons c s ih =>
    rw [indexOf] at h
    split at h
    · next hpre => exact (startsWith_iff.1 hpre).isInfix
    · obtain ⟨j, hj, -⟩ := Option.map_eq_some_iff.1 h
      exact (ih hj).trans (List.suffix_cons c s).isInfix

/-- The first occurrence of a pattern whose first character does not occur before. -/
theorem indexOf_append {w pattern : Bytes} {c : UInt8} (hw : c ∉ w) (rest : Bytes) :
    indexOf (c :: pattern) (w ++ ((c :: pattern) ++ rest)) = some w.length := by
  induction w with
  | nil =>
    have hpre : startsWith ((c :: pattern) ++ rest) (c :: pattern) = true :=
      startsWith_iff.2 (List.prefix_append _ _)
    rw [List.cons_append] at hpre
    rw [List.nil_append, List.cons_append, indexOf, if_pos hpre]
    rfl
  | cons b w ih =>
    have hb : c ≠ b := fun h => hw (by simp [h])
    have hpre : ¬ startsWith (b :: (w ++ ((c :: pattern) ++ rest))) (c :: pattern) = true := by
      rw [startsWith_iff, List.cons_prefix_cons]
      exact fun h => hb h.1
    rw [List.cons_append, indexOf, if_neg hpre, ih fun h => hw (.tail _ h)]
    rfl

theorem fields_of_not_mem {w : Bytes} (h : 32 ∉ w) : fields w = [w] := by
  induction w with
  | nil => rfl
  | cons c w ih =>
    rw [fields, if_neg fun hc => h (by simp [hc]), ih fun h' => h (.tail _ h')]

/-- A string is split at any of its blanks. -/
theorem fields_append (a b : Bytes) : fields (a ++ 32 :: b) = fields a ++ fields b := by
  induction a with
  | nil => rfl
  | cons c a ih =>
    rw [List.cons_append, fields, fields]
    split
    · rw [ih]; rfl
    · rw [ih]
      cases hf : fields a with
      | nil =>
        -- there is always a first part
        cases a with
        | nil => cases hf
        | cons d a =>
          rw [fields] at hf
          split at hf
          · cases hf
          · split at hf <;> cases hf
      | cons w ws => rfl

/-- A string whose last part is not empty is split into all its parts. -/
theorem split_append {a w : Bytes} (hw : 32 ∉ w) (hne : w ≠ []) :
    split (a ++ 32 :: w) = fields a ++ [w] := by
  rw [split, if_pos (by simp), fields_append, fields_of_not_mem hw,
    List.rdropWhile_concat_neg _ _ _ (by simpa using hne)]

end Dchat.Java
