import Dchat.Foundations.CString

/-!
# The cipher of `encryption/encryption.c`

`encrypt` adds the bytes of the key, repeated, to those of the text, and `decrypt` subtracts them.
Both write at most `bufferLen` bytes. `cipherLoop_eq_mapIdx` is the byte at each index, and
`decrypt_encrypt` the round trip.

`encryptRun` and `decryptRun` are the same functions with their `int` index, into a buffer that is
memory. `cipherRun_eq` refines the latter to the former, and `cipher_roundTrip` says what they
return and write, whether the buffer is long enough or not.
-/

namespace Dchat.Encryption

/-- The loop of `encrypt` and `decrypt`, at index `i`: the value returned and the bytes written from
there on. -/
def cipherLoop (op : UInt8 → UInt8 → UInt8) (key : Bytes) (bufferLen : ℕ) :
    ℕ → Bytes → ℤ × Bytes
  | i, [] => (i, [])
  | i, c :: text =>
    if i = bufferLen then (-1, [])
    else
      let r := cipherLoop op key bufferLen (i + 1) text
      (r.1, op c (key.getD (i % key.length) 0) :: r.2)

/-- `encrypt`: the value returned and the bytes written to `ciphertext_buffer`. -/
def encrypt (plaintext key : Bytes) (bufferLen : ℕ) : ℤ × Bytes :=
  cipherLoop (· + ·) key bufferLen 0 plaintext

/-- `decrypt`: the value returned and the bytes written to `plaintext_buffer`. -/
def decrypt (ciphertext key : Bytes) (bufferLen : ℕ) : ℤ × Bytes :=
  cipherLoop (· - ·) key bufferLen 0 ciphertext

theorem cipherLoop_cons {op : UInt8 → UInt8 → UInt8} {key : Bytes} {bufferLen i : ℕ} {c : UInt8}
    {text : Bytes} (hi : i < bufferLen) :
    cipherLoop op key bufferLen i (c :: text) =
      ((cipherLoop op key bufferLen (i + 1) text).1,
        op c (key.getD (i % key.length) 0) :: (cipherLoop op key bufferLen (i + 1) text).2) := by
  rw [cipherLoop, if_neg (by omega)]

/-- In a buffer that is long enough every byte is written. -/
theorem length_cipherLoop (op : UInt8 → UInt8 → UInt8) (key : Bytes) {bufferLen i : ℕ} {text : Bytes}
    (h : i + text.length ≤ bufferLen) :
    (cipherLoop op key bufferLen i text).1 = (i + text.length : ℕ) ∧
      (cipherLoop op key bufferLen i text).2.length = text.length := by
  induction text generalizing i with
  | nil => exact ⟨rfl, rfl⟩
  | cons c text ih =>
    rw [List.length_cons] at h ⊢
    obtain ⟨h1, h2⟩ := ih (show i + 1 + text.length ≤ bufferLen by omega)
    rw [cipherLoop_cons (by omega)]
    refine ⟨?_, congrArg (· + 1) h2⟩
    rw [h1]
    congr 1
    omega

theorem cipherLoop_inverse {op inv : UInt8 → UInt8 → UInt8} (hinv : ∀ c k, inv (op c k) k = c)
    (key : Bytes) {bufferLen i : ℕ} {text : Bytes} (h : i + text.length ≤ bufferLen) :
    (cipherLoop inv key bufferLen i (cipherLoop op key bufferLen i text).2).2 = text := by
  induction text generalizing i with
  | nil => rfl
  | cons c text ih =>
    rw [List.length_cons] at h
    rw [cipherLoop_cons (by omega), cipherLoop_cons (by omega)]
    dsimp only
    rw [hinv, ih (by omega)]

/-- The byte at each index, in a buffer that is long enough. -/
theorem cipherLoop_eq_mapIdx (op : UInt8 → UInt8 → UInt8) (key : Bytes) {bufferLen i : ℕ}
    {text : Bytes} (h : i + text.length ≤ bufferLen) :
    (cipherLoop op key bufferLen i text).2 =
      text.mapIdx fun j c => op c (key.getD ((i + j) % key.length) 0) := by
  induction text generalizing i with
  | nil => rfl
  | cons c text ih =>
    rw [List.length_cons] at h
    rw [cipherLoop_cons (by omega), ih (by omega), List.mapIdx_cons]
    refine congrArg₂ List.cons rfl (congrArg₂ List.mapIdx ?_ rfl)
    funext j d
    rw [show i + 1 + j = i + (j + 1) by omega]

/-- A buffer that is too short is filled, and -1 is returned. -/
theorem cipherLoop_short (op : UInt8 → UInt8 → UInt8) (key : Bytes) {bufferLen i : ℕ} {text : Bytes}
    (hi : i ≤ bufferLen) (h : bufferLen < i + text.length) :
    (cipherLoop op key bufferLen i text).1 = -1 ∧
      i + (cipherLoop op key bufferLen i text).2.length = bufferLen := by
  induction text generalizing i with
  | nil =>
    rw [List.length_nil] at h
    omega
  | cons c text ih =>
    rw [List.length_cons] at h
    obtain rfl | hlt := Nat.eq_or_lt_of_le hi
    · rw [cipherLoop, if_pos rfl]
      exact ⟨rfl, rfl⟩
    · obtain ⟨h1, h2⟩ := ih (show i + 1 ≤ bufferLen from hlt) (by omega)
      rw [cipherLoop_cons hlt]
      refine ⟨h1, ?_⟩
      rw [List.length_cons]
      omega

/-! ## In memory -/

/-- The bytes of a buffer and behind it, by their index. -/
abbrev Memory := ℕ → UInt8

/-- The first `n` bytes. -/
def Memory.bytes (memory : Memory) (n : ℕ) : Bytes := (List.range n).map memory

/-- `bytes` are written from index `i` on. -/
def Memory.write (memory : Memory) (i : ℕ) (bytes : Bytes) : Memory := fun j =>
  if i ≤ j then bytes[j - i]?.getD (memory j) else memory j

/-- The loop of `encrypt` and `decrypt` with an `int` index, from index `i` on: the value returned
and the memory. It has no meaning if the key is empty, in `i % key_len`, or if `i++` overflows. -/
def cipherRun (op : UInt8 → UInt8 → UInt8) (key : Bytes) (bufferLen : ℕ) :
    ℕ → Bytes → Memory → Option (ℤ × Memory)
  | i, [], memory => some (i, memory)
  | i, c :: text, memory =>
    if i = bufferLen then some (-1, memory)
    else if key.length = 0 ∨ i = 2147483647 then none
    else cipherRun op key bufferLen (i + 1) text
      (Function.update memory i (op c (key.getD (i % key.length) 0)))

/-- `encrypt` into the buffer at `memory`. -/
def encryptRun (plaintext key : Bytes) (bufferLen : ℕ) (memory : Memory) : Option (ℤ × Memory) :=
  cipherRun (· + ·) key bufferLen 0 plaintext memory

/-- `decrypt` into the buffer at `memory`. -/
def decryptRun (ciphertext key : Bytes) (bufferLen : ℕ) (memory : Memory) : Option (ℤ × Memory) :=
  cipherRun (· - ·) key bufferLen 0 ciphertext memory

@[simp] theorem Memory.write_nil (memory : Memory) (i : ℕ) : memory.write i [] = memory := by
  funext j
  simp [Memory.write]

theorem Memory.write_cons (memory : Memory) (i : ℕ) (c : UInt8) (bytes : Bytes) :
    Memory.write (Function.update memory i c) (i + 1) bytes = memory.write i (c :: bytes) := by
  funext j
  obtain hlt | rfl | hgt := Nat.lt_trichotomy j i
  · simp only [write, if_neg (show ¬ i + 1 ≤ j by omega), if_neg (show ¬ i ≤ j by omega)]
    exact Function.update_of_ne (by omega) ..
  · simp [write]
  · have hindex : j - i = j - (i + 1) + 1 := by omega
    simp only [write, if_pos (show i + 1 ≤ j from hgt), if_pos (show i ≤ j by omega), hindex,
      List.getElem?_cons_succ]
    rw [Function.update_of_ne (by omega)]

/-- What lies behind the bytes written stays. -/
theorem Memory.write_of_le (memory : Memory) {i j : ℕ} {bytes : Bytes} (h : i + bytes.length ≤ j) :
    memory.write i bytes j = memory j := by
  rw [write, if_pos (by omega), List.getElem?_eq_none (by omega), Option.getD_none]

theorem Memory.bytes_write (memory : Memory) (bytes : Bytes) :
    (memory.write 0 bytes).bytes bytes.length = bytes := by
  refine List.ext_getElem (by simp [Memory.bytes]) fun j h₁ h₂ => ?_
  simp [Memory.bytes, write, h₂]

/-- **The loop in memory** writes the bytes of `cipherLoop` and returns its value. -/
theorem cipherRun_eq (op : UInt8 → UInt8 → UInt8) {key : Bytes} (hkey : key ≠ []) (bufferLen : ℕ)
    {i : ℕ} {text : Bytes} (h : i + text.length < 2147483648) (memory : Memory) :
    cipherRun op key bufferLen i text memory =
      some ((cipherLoop op key bufferLen i text).1,
        memory.write i (cipherLoop op key bufferLen i text).2) := by
  induction text generalizing i memory with
  | nil => rw [cipherRun, cipherLoop, Memory.write_nil]
  | cons c text ih =>
    rw [List.length_cons] at h
    by_cases hi : i = bufferLen
    · rw [cipherRun, cipherLoop, if_pos hi, if_pos hi, Memory.write_nil]
    · have hdefined : ¬ (key.length = 0 ∨ i = 2147483647) := by
        rintro (h' | h')
        · exact hkey (List.eq_nil_of_length_eq_zero h')
        · omega
      rw [cipherRun, if_neg hi, if_neg hdefined, ih (by omega), Memory.write_cons, cipherLoop,
        if_neg hi]

/-- Two runs, the second on what the first has written, with the inverse operation. -/
theorem cipherRun_inverse {op inv : UInt8 → UInt8 → UInt8} (hinv : ∀ c k, inv (op c k) k = c)
    {key x : Bytes} (hkey : key ≠ []) (hx : x.length < 2147483648) {bufferLen : ℕ}
    (h : x.length ≤ bufferLen) (memory memory' : Memory) :
    ∃ c, cipherRun op key bufferLen 0 x memory = some ((x.length : ℤ), c) ∧
      ∃ p, cipherRun inv key bufferLen 0 (c.bytes x.length) memory' = some ((x.length : ℤ), p) ∧
        p.bytes x.length = x := by
  have h0 : 0 + x.length ≤ bufferLen := by omega
  obtain ⟨hret, hlen⟩ := length_cipherLoop op key h0
  have hwritten : (memory.write 0 (cipherLoop op key bufferLen 0 x).2).bytes x.length =
      (cipherLoop op key bufferLen 0 x).2 := by
    rw [← hlen]
    exact memory.bytes_write _
  have hfits : 0 + (cipherLoop op key bufferLen 0 x).2.length ≤ bufferLen := by
    rw [hlen]
    exact h0
  obtain ⟨hret', -⟩ := length_cipherLoop inv key hfits
  refine ⟨memory.write 0 (cipherLoop op key bufferLen 0 x).2, ?_, memory'.write 0 x, ?_,
    memory'.bytes_write x⟩
  · rw [cipherRun_eq op hkey bufferLen (by omega), hret, Nat.zero_add]
  · rw [hwritten, cipherRun_eq inv hkey bufferLen (by rw [hlen]; omega), hret', hlen,
      cipherLoop_inverse hinv key h0, Nat.zero_add]

/-- A run into a buffer that is too short. -/
theorem cipherRun_short (op : UInt8 → UInt8 → UInt8) {key x : Bytes} (hkey : key ≠ [])
    (hx : x.length < 2147483648) {bufferLen : ℕ} (h : bufferLen < x.length) (memory : Memory) :
    ∃ c, cipherRun op key bufferLen 0 x memory = some (-1, c) ∧ ∀ j, bufferLen ≤ j → c j = memory j := by
  obtain ⟨hret, hlen⟩ := cipherLoop_short op key (Nat.zero_le bufferLen)
    (show bufferLen < 0 + x.length by omega)
  refine ⟨_, ?_, fun j hj => memory.write_of_le (by rw [hlen]; exact hj)⟩
  rw [cipherRun_eq op hkey bufferLen (by omega), hret]

/-- **The cipher round trip.** In a buffer that is long enough both functions return the length, and
each undoes the other on every byte; in a shorter one both return -1 and write nothing at or behind
its end. -/
theorem cipher_roundTrip {key x : Bytes} (hkey : key ≠ []) (hx : x.length < 2147483648)
    (bufferLen : ℕ) (memory memory' : Memory) :
    (x.length ≤ bufferLen →
      (∃ c, encryptRun x key bufferLen memory = some ((x.length : ℤ), c) ∧
        ∃ p, decryptRun (c.bytes x.length) key bufferLen memory' = some ((x.length : ℤ), p) ∧
          p.bytes x.length = x) ∧
      ∃ p, decryptRun x key bufferLen memory = some ((x.length : ℤ), p) ∧
        ∃ c, encryptRun (p.bytes x.length) key bufferLen memory' = some ((x.length : ℤ), c) ∧
          c.bytes x.length = x) ∧
    (bufferLen < x.length →
      (∃ c, encryptRun x key bufferLen memory = some (-1, c) ∧
        ∀ j, bufferLen ≤ j → c j = memory j) ∧
      ∃ p, decryptRun x key bufferLen memory = some (-1, p) ∧
        ∀ j, bufferLen ≤ j → p j = memory j) := by
  refine ⟨fun h => ⟨?_, ?_⟩, fun h => ⟨?_, ?_⟩⟩
  · exact cipherRun_inverse (fun c k => by simp) hkey hx h memory memory'
  · exact cipherRun_inverse (fun c k => by simp) hkey hx h memory memory'
  · exact cipherRun_short (· + ·) hkey hx h memory
  · exact cipherRun_short (· - ·) hkey hx h memory

/-- A byte that wraps around, under a key of two bytes, in a buffer of three. -/
theorem cipher_roundTrip_wrapping :
    (∃ c, encryptRun [250, 7, 137] [10, 249] 3 (fun _ => 0) = some (3, c) ∧
      ∃ p, decryptRun (c.bytes 3) [10, 249] 3 (fun _ => 0) = some (3, p) ∧
        p.bytes 3 = [250, 7, 137]) ∧
    ∃ p, decryptRun [250, 7, 137] [10, 249] 3 (fun _ => 0) = some (3, p) ∧
      ∃ c, encryptRun (p.bytes 3) [10, 249] 3 (fun _ => 0) = some (3, c) ∧
        c.bytes 3 = [250, 7, 137] :=
  have hkey : ([10, 249] : Bytes) ≠ [] := by decide
  have hx : ([250, 7, 137] : Bytes).length < 2147483648 := by decide
  (cipher_roundTrip hkey hx 3 (fun _ => 0) (fun _ => 0)).1 (by decide)

end Dchat.Encryption
