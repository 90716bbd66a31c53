import Dchat.Foundations.Runs
import Dchat.RMP.Moves

/-!
# How much `RMP_listen` says it has written

A caller of `RMP_listen` with a buffer of `len` bytes takes a result `n` that is not negative for
the number of bytes in its buffer; `chat` writes to `buf[n - 1]`. The result is the length of the
message that a SYN_ACK releases, and that message was read with the buffer of another call, maybe
the 65000 bytes of `attemptSend`.

* `within_iff_fits`: a result exceeds the buffer in exactly the steps that release a longer message.
* `listen_within`: in every run without such a step all results are within their buffers.
  `listen_within_of_short`: so they are if no DATA read is longer than a buffer passed.
-/

namespace Dchat.RMP

open Runs

/-- A process, and the results of its calls of `RMP_listen`, each with the length of its buffer. -/
structure Counting where
  st : RmpState
  results : List (ℕ × ℤ)

namespace Counting

/-- No call yet. -/
def Initial (s : Counting) : Prop :=
  (∃ garbage, s.st = RmpState.initial garbage) ∧ s.results = []

/-- The length of the buffer given to `RMP_listen`. -/
def bufferLength : Mode → Option ℕ
  | .listening len => some len
  | _ => none

theorem mem_bufferLength {mode : Mode} {len : ℕ} :
    len ∈ bufferLength mode ↔ mode = .listening len := by
  cases mode <;> simp [bufferLength]

/-- The result of `RMP_listen`, with the length `len` of the buffer it was given. -/
def resultOf (len : ℕ) : LocalEvent → Option (ℕ × ℤ)
  | .listened n _ _ _ _ => some (len, n)
  | _ => none

/-- The results of `RMP_listen` among the events of a step. -/
def newResults (mode : Mode) (es : List LocalEvent) : List (ℕ × ℤ) :=
  match mode with
  | .listening len => es.filterMap (resultOf len)
  | _ => []

/-- A step of the process, recorded. -/
def step (s : Counting) (i : Input) : Option Counting :=
  (rmpStep s.st i).map fun r =>
    { st := r.state
      results := s.results ++ newResults s.st.mode (localEvents i r) }

/-- A step fits unless `RMP_listen` reads in it the SYN_ACK of a held message that is longer than
the buffer. -/
def Fits (s : Counting) (i : Input) : Prop :=
  ∀ len ∈ bufferLength s.st.mode, ∀ p ∈ i.read, p.2.type = .synAck →
    ∀ held ∈ s.st.view.slot (rmpAddressHash p.1), held.1 = p.2.id → held.2.length ≤ len

instance (s : Counting) (i : Input) : Decidable (s.Fits i) :=
  inferInstanceAs (Decidable (∀ len ∈ bufferLength s.st.mode, ∀ p ∈ i.read, p.2.type = .synAck →
    ∀ held ∈ s.st.view.slot (rmpAddressHash p.1), held.1 = p.2.id → held.2.length ≤ len))

/-- A result that reports no error is the number of bytes of a part of the buffer. -/
def Within (p : ℕ × ℤ) : Prop := 0 ≤ p.2 → p.2 ≤ p.1

theorem mem_newResults {mode : Mode} {es : List LocalEvent} {p : ℕ × ℤ} :
    p ∈ newResults mode es ↔ ∃ src id bytes delivered,
      mode = .listening p.1 ∧ .listened p.2 src id bytes delivered ∈ es := by
  cases mode with
  | idle => simp [newResults]
  | waiting m => simp [newResults]
  | listening len =>
    simp only [newResults, List.mem_filterMap]
    constructor
    · rintro ⟨e, he, hp⟩
      cases e with
      | call | sent => cases hp
      | listened n src id bytes delivered =>
        obtain rfl := Option.some.inj hp
        exact ⟨src, id, bytes, delivered, rfl, he⟩
    · rintro ⟨src, id, bytes, delivered, hmode, he⟩
      obtain ⟨len', n⟩ := p
      obtain rfl : len = len' := Mode.listening.inj hmode
      exact ⟨_, he, rfl⟩

/-- A SYN_ACK that releases a message makes `RMP_listen` return its length. -/
theorem listened_of_held {late faulty : Prop} {v v' : View} {out : Output} {es : List LocalEvent}
    {src : RmpAddress} {d : Datagram} (h : Move late faulty v (some (src, d)) out es v') {len : ℕ}
    (hmode : v.mode = .listening len) (ht : d.type = .synAck) {message : Bytes}
    (hslot : v.slot (rmpAddressHash src) = some (d.id, message)) :
    es = [.listened message.length src d.id (message.take len) true] := by
  cases h with
  | deliver _ hheld =>
    obtain rfl : message = _ := (Prod.mk.inj (Option.some.inj (hslot.symm.trans hheld))).2
    obtain rfl := Mode.listening.inj hmode
    rfl
  | stale _ hnone => exact absurd hslot (hnone message)
  | data ht' | ack ht' | other ht' => simp [ht] at ht'
  | acked | consume => cases hmode

/-- **One step.** A result exceeds the buffer exactly when a longer message is released. -/
theorem within_iff_fits {s : Counting} (hv : s.st.Valid) {i : Input} {r : StepResult}
    (h : rmpStep s.st i = some r) :
    (∀ p ∈ newResults s.st.mode (localEvents i r), Within p) ↔ s.Fits i := by
  have hmove := (rmpStep_move hv h).1
  constructor
  · rintro hwithin len hlen ⟨src, d⟩ hread ht ⟨id, message⟩ hheld rfl
    have hmode := mem_bufferLength.1 hlen
    rw [Option.mem_def.1 hread] at hmove
    have hes := listened_of_held hmove hmode ht hheld
    have hmem := hwithin (len, message.length)
      (mem_newResults.2 ⟨src, d.id, message.take len, true, hmode, by rw [hes]; simp⟩)
    exact Int.ofNat_le.1 (hmem (Int.natCast_nonneg _))
  · intro hfits p hp hn
    obtain ⟨src, id, bytes, delivered, hmode, he⟩ := mem_newResults.1 hp
    by_cases hpos : 0 < p.2
    · obtain ⟨len, d, hmode', hread, ht, hid, hcases⟩ := hmove.listened he hpos
      obtain rfl : p.1 = len := Mode.listening.inj (hmode.symm.trans hmode')
      rcases hcases with ⟨m, hslot, hm, -⟩ | ⟨-, hle, -⟩
      · have hfit := hfits p.1 (by rw [hmode]; rfl) _ hread ht _ hslot hid.symm
        dsimp only at hfit
        omega
      · rw [List.length_take] at hle
        omega
    · omega

/-- **Every result of `RMP_listen` is within the buffer of its call**, in every run whose steps all
fit. -/
theorem listen_within {s : Counting} (h : Reach step Fits Initial s) : ∀ p ∈ s.results, Within p := by
  have hinv : s.st.Valid ∧ ∀ p ∈ s.results, Within p := by
    refine h.invariant (I := fun s => s.st.Valid ∧ ∀ p ∈ s.results, Within p) ?_ ?_
    · rintro s ⟨⟨garbage, hst⟩, hresults⟩
      exact ⟨hst ▸ RmpState.valid_initial garbage, by simp [hresults]⟩
    · rintro s i s' ⟨hv, hwithin⟩ hfits hs
      obtain ⟨r, hr, rfl⟩ := Option.map_eq_some_iff.1 hs
      refine ⟨(rmpStep_move hv hr).2, fun p hp => ?_⟩
      rcases List.mem_append.1 hp with hp | hp
      · exact hwithin p hp
      · exact (within_iff_fits hv hr).2 hfits p hp
  exact hinv.2

/-! ## Messages no longer than any buffer -/

/-- The length of the buffer that a call of `RMP_listen` passes. -/
def passed : Input → Option ℕ
  | .rmpListen len _ _ => some len
  | _ => none

/-- No buffer passed is shorter than `cap`, and no DATA read is longer. -/
def Short (cap : ℕ) (s : Counting) (i : Input) : Prop :=
  (∀ len ∈ passed i, cap ≤ len) ∧
    ∀ p ∈ i.read, p.2.type = .data → (p.2.payload.take s.st.mode.capacity).length ≤ cap

/-- What holds in a run whose steps are `Short`. -/
structure ShortInv (cap : ℕ) (s : Counting) : Prop where
  valid : s.st.Valid
  buffer : ∀ len, s.st.mode = .listening len → cap ≤ len
  held : ∀ k id message, s.st.view.slot k = some (id, message) → message.length ≤ cap
  within : ∀ p ∈ s.results, Within p

/-- A process that listens after a move was outside the library before it. -/
theorem idle_of_listening {late faulty : Prop} {v v' : View}
    {read : Option (RmpAddress × Datagram)} {out : Output} {es : List LocalEvent}
    (h : Move late faulty v read out es v') {len : ℕ} (hmode : v'.mode = .listening len) :
    v.mode = .idle ∧ es = [] := by
  have hresume : ∀ {p : Prop} {n : ℕ} {src : RmpAddress} {id : MessageId} {mode mode' : Mode}
      {es : List LocalEvent}, Resume p n src id mode es mode' → mode' ≠ .listening len := by
    intro p n src id mode mode' es hr
    cases hr <;> simp
  cases h with
  | listen => exact ⟨rfl, rfl⟩
  | call | callFailed | tidy | resend | giveUp | deaf | acked | deliver | consume => cases hmode
  | data ht hs hr => exact absurd hmode (hresume hr)
  | ack ht hs hr => exact absurd hmode (hresume hr)
  | stale ht hslot hr => exact absurd hmode (hresume hr)
  | other ht hr => exact absurd hmode (hresume hr)

/-- It got there by a call of `RMP_listen`. -/
theorem passed_of_listening {st : RmpState} (hv : st.Valid) {i : Input} {r : StepResult}
    (h : rmpStep st i = some r) {len : ℕ} (hmode : r.state.mode = .listening len) :
    passed i = some len := by
  obtain ⟨hidle, hes⟩ := idle_of_listening (rmpStep_move hv h).1 hmode
  have hcall : st.call = .idle := by
    have hst : st.mode = .idle := hidle
    unfold RmpState.mode at hst
    split at hst
    · assumption
    · cases hst
    · cases hst
    · cases hst
  cases i with
  | rmpListen len' a c =>
    simp only [rmpStep, hcall, Option.some.injEq] at h
    subst h
    exact congrArg some (Mode.listening.inj hmode)
  | rmpSendTo dest buffer newId o => cases hes
  | loop currentTime c o => simp [rmpStep, hcall] at h
  | recvfrom x o => simp [rmpStep, hcall] at h

/-- **All results are within their buffers if no DATA read is longer than any buffer passed.** -/
theorem listen_within_of_short {cap : ℕ} {s : Counting} (h : Reach step (Short cap) Initial s) :
    ∀ p ∈ s.results, Within p := by
  have hinv : ShortInv cap s := by
    refine h.invariant (I := ShortInv cap) ?_ ?_
    · rintro s ⟨⟨garbage, hst⟩, hresults⟩
      refine ⟨hst ▸ RmpState.valid_initial garbage, ?_, ?_, by simp [hresults]⟩
      · intro len hmode
        rw [hst] at hmode
        cases hmode
      · intro k id message hslot
        rw [hst] at hslot
        cases hslot
    · rintro s i s' ⟨hv, hbuffer, hheld, hwithin⟩ ⟨hpassed, hread⟩ hs
      obtain ⟨r, hr, rfl⟩ := Option.map_eq_some_iff.1 hs
      have hmove := (rmpStep_move hv hr).1
      have hfits : s.Fits i := by
        rintro len hlen p - - ⟨id, message⟩ hslot -
        exact Nat.le_trans (hheld _ id message hslot) (hbuffer len (mem_bufferLength.1 hlen))
      refine ⟨(rmpStep_move hv hr).2, ?_, ?_, ?_⟩
      · intro len hmode
        exact hpassed len (passed_of_listening hv hr hmode)
      · intro k id message hslot
        rcases hmove.slot_cases with ⟨src, d, hd, ht, he⟩ | ⟨-, hkeep⟩
        · have hslot' : r.state.view.slot k = some (id, message) := hslot
          rw [he] at hslot'
          by_cases hk : k = rmpAddressHash src
          · rw [hk, Function.update_self] at hslot'
            obtain ⟨-, rfl⟩ := Prod.mk.inj (Option.some.inj hslot')
            exact hread (src, d) hd ht
          · rw [Function.update_of_ne hk] at hslot'
            exact hheld k id message hslot'
        · exact hheld k id message (hkeep k _ hslot)
      · intro p hp
        rcases List.mem_append.1 hp with hp | hp
        · exact hwithin p hp
        · exact (within_iff_fits hv hr).2 hfits p hp
  exact hinv.within

/-- A DATA read while `RMP_sendTo` waits for its ACK, and then, with a shorter buffer, the SYN_ACK
of that DATA. -/
def longRun : List Input :=
  [.sendTo ⟨1, 1⟩ [7] 5, .wait, .receive ⟨2, 1⟩ .data 9 [104, 105, 33], .wait,
    .receive ⟨1, 1⟩ .ack 5 [], .listen 2, .receive ⟨2, 1⟩ .synAck 9 []]

/-- A process that has not been called. -/
def start : Counting := ⟨RmpState.initial (blankBuffer ⟨0, 0⟩), []⟩

/-- `RMP_listen` returns 3 with a buffer of 2 bytes. -/
theorem not_listen_within :
    ¬ ∀ s, Reach step (fun _ _ => True) Initial s → ∀ p ∈ s.results, Within p := by
  intro h
  obtain ⟨s, hs, hresults⟩ := Option.map_eq_some_iff.1
    (show (exec step (fun _ _ => True) start longRun).map Counting.results = some [(2, 3)] by decide)
  have hs := h s (reach_exec _ (.start ⟨⟨_, rfl⟩, rfl⟩) hs) (2, 3) (by simp [hresults])
  exact absurd (hs (by decide)) (by decide)

/-- The same messages, with room for three bytes. -/
theorem listen_within_fittingRun :
    ∃ s : Counting, s.results = [(3, 3)] ∧ ∀ p ∈ s.results, Within p := by
  obtain ⟨s, hs, hresults⟩ := Option.map_eq_some_iff.1
    (show (exec step Fits start
        [.sendTo ⟨1, 1⟩ [7] 5, .wait, .receive ⟨2, 1⟩ .data 9 [104, 105, 33], .wait,
          .receive ⟨1, 1⟩ .ack 5 [], .listen 3, .receive ⟨2, 1⟩ .synAck 9 []]).map
      Counting.results = some [(3, 3)] by decide)
  exact ⟨s, hresults, listen_within (reach_exec _ (.start ⟨⟨_, rfl⟩, rfl⟩) hs)⟩

end Counting

end Dchat.RMP
