import Dchat.RMP.Integrity

/-!
# Messages arrive whole

Where every message has room in every buffer that is given to `RMP_listen`, nothing of it is
cut off on its way: what a receive buffer holds is a message that its source passed to
`RMP_sendTo`, and so is what `RMP_listen` returns (`Whole`). Without this, `Authentic` says
that it is the beginning of one.
-/

namespace Dchat.RMP.Network

open Runs

/-- The messages have at most `size` bytes, and the buffers at least as many. -/
def Roomy (size : ℕ) : Action → Prop
  | .step _ (.rmpListen len _ _) => size ≤ len
  | .step _ (.rmpSendTo _ buffer _ _) => buffer.length ≤ size
  | _ => True

instance (size : ℕ) : DecidablePred (Roomy size)
  | .step _ (.rmpListen len _ _) => inferInstanceAs (Decidable (size ≤ len))
  | .step _ (.rmpSendTo _ buffer _ _) => inferInstanceAs (Decidable (buffer.length ≤ size))
  | .step _ (.loop ..) | .step _ (.recvfrom ..) | .lose _ | .copy _ =>
    inferInstanceAs (Decidable True)

/-- The message with an id that `S` passed to `RMP_sendTo` for `R`. -/
def Called (h : List (RmpAddress × LocalEvent)) (S R : RmpAddress) (id : MessageId) (bytes : Bytes) :
    Prop :=
  ∃ m ∈ called S R h, m.id = id ∧ m.message = bytes

theorem Called.append {h : List (RmpAddress × LocalEvent)} {S R : RmpAddress} {id : MessageId}
    {bytes : Bytes} (hc : Called h S R id bytes) (h' : List (RmpAddress × LocalEvent)) :
    Called (h ++ h') S R id bytes := by
  obtain ⟨m, hm, hmatch⟩ := hc
  exact ⟨m, called_append S R h h' ▸ List.mem_append_left _ hm, hmatch⟩

/-- Nothing has been cut off. -/
structure Whole (nodes : Finset RmpAddress) (size : ℕ) (s : Network) : Prop where
  room : ∀ n len, (s.view n).mode = .listening len → size ≤ len
  called : ∀ S R, ∀ m ∈ called S R s.history, m.message.length ≤ size
  slot : ∀ R k id bytes, (s.view R).slot k = some (id, bytes) →
    ∃ S ∈ nodes, rmpAddressHash S = k ∧ Called s.history S R id bytes
  listened : ∀ R (n : ℤ) src id bytes delivered,
    (R, .listened n src id bytes delivered) ∈ s.history → 0 < n →
      Called s.history src R id bytes ∧ n = bytes.length

section Step

variable {nodes : Finset RmpAddress} {size : ℕ} {s s' : Network} {n : RmpAddress} {i : Input}
  {r : StepResult}

/-- A step of the process at `n`, with its result. -/
theorem result_of_udpStep (h : udpStep s (.step n i) = some s') :
    ∃ r rest, rmpStep (s.proc n) i = some r ∧
      s'.proc = Function.update s.proc n r.state ∧ s'.inFlight = rest ++ packets n r.out ∧
      s'.history = s.history ++ (localEvents i r).map (fun e => (n, e)) ∧
      (∀ p ∈ rest, p ∈ s.inFlight) ∧ ∀ src d, i.read = some (src, d) → ⟨src, n, d⟩ ∈ s.inFlight := by
  rw [udpStep] at h
  split at h
  · next hr =>
    obtain ⟨r, hran, rfl⟩ := Option.map_eq_some_iff.1 h
    exact ⟨r, _, hran, rfl, rfl, rfl, fun p hp => hp, by simp [hr]⟩
  · next src d hr =>
    split at h
    · next hmem =>
      obtain ⟨r, hran, rfl⟩ := Option.map_eq_some_iff.1 h
      refine ⟨r, _, hran, rfl, rfl, rfl, fun p hp => List.mem_of_mem_erase hp, fun src' d' hr' => ?_⟩
      obtain ⟨rfl, rfl⟩ := Prod.mk.inj (Option.some.inj (hr.symm.trans hr'))
      exact hmem
    · cases h

/-- A call of `RMP_sendTo` is made by the step that is given its arguments. -/
theorem input_of_call {m : Outgoing} (h : .call m ∈ localEvents i r) :
    ∃ o, i = .rmpSendTo m.dest m.message m.id o := by
  rcases r with ⟨st, out, _ | _ | _⟩ <;> cases i <;> simp_all [localEvents]

/-- Only a call of `RMP_listen` begins to listen. -/
theorem listening_of_move {late faulty : Prop} {v v' : View} {read : Option (RmpAddress × Datagram)}
    {out : Output} {es : List LocalEvent} (h : Move late faulty v read out es v') {len : ℕ}
    (hmode : v'.mode = .listening len) : v.mode = .idle ∧ es = [] := by
  have hresume : ∀ {p : Prop} {limit : ℕ} {src : RmpAddress} {id : MessageId} {mode mode' : Mode}
      {es : List LocalEvent}, Resume p limit src id mode es mode' → mode' ≠ .listening len := by
    intro p limit src id mode mode' es hr hmode
    cases hr <;> cases hmode
  cases h with
  | listen => exact ⟨rfl, rfl⟩
  | call | callFailed | tidy | resend | giveUp | deaf | acked | deliver | consume => cases hmode
  | data _ _ hr => exact absurd hmode (hresume hr)
  | ack _ _ hr _ => exact absurd hmode (hresume hr)
  | stale _ _ hr => exact absurd hmode (hresume hr)
  | other _ hr => exact absurd hmode (hresume hr)

/-- It waits with the buffer that it is given. -/
theorem input_of_listening {st : RmpState} {len : ℕ} (hv : st.Valid) (h : rmpStep st i = some r)
    (hmode : r.state.mode = .listening len) :
    ∃ recvSrcAddress c, i = .rmpListen len recvSrcAddress c := by
  obtain ⟨hidle, hnone⟩ := listening_of_move (rmpStep_move hv h).1 hmode
  have hidle : st.mode = .idle := hidle
  cases hcall : st.call <;> rw [RmpState.mode, hcall] at hidle <;> try cases hidle
  cases i with
  | rmpListen len' recvSrcAddress c =>
    rw [rmpStep, hcall] at h
    obtain rfl := Option.some.inj h
    obtain rfl := Mode.listening.inj hmode
    exact ⟨_, _, rfl⟩
  | rmpSendTo dest buffer newId o => cases hnone
  | loop currentTime c o =>
    rw [rmpStep, hcall] at h
    cases h
  | recvfrom outcome o =>
    rw [rmpStep, hcall] at h
    cases h

/-- A move that ends in the wait loop of `attemptSend` returns nothing. -/
theorem calls_of_waiting {late faulty : Prop} {v v' : View} {read : Option (RmpAddress × Datagram)}
    {out : Output} {es : List LocalEvent} (h : Move late faulty v read out es v') {m : Outgoing}
    (hmode : v'.mode = .waiting m) : ∀ e ∈ es, ∃ m', e = .call m' := by
  have hresume : ∀ {p : Prop} {limit : ℕ} {src : RmpAddress} {id : MessageId} {mode mode' : Mode}
      {es : List LocalEvent}, Resume p limit src id mode es mode' → mode' = .waiting m →
      ∀ e ∈ es, ∃ m', e = .call m' := by
    intro p limit src id mode mode' es hr hmode
    cases hr with
    | waiting => exact fun e he => by cases he
    | listening | failed => cases hmode
  cases h with
  | listen | callFailed | giveUp | deaf | acked | deliver => cases hmode
  | call => exact fun e he => ⟨_, List.mem_singleton.1 he⟩
  | tidy | resend | consume => exact fun e he => by cases he
  | data _ _ hr => exact hresume hr hmode
  | ack _ _ hr _ => exact hresume hr hmode
  | stale _ _ hr => exact hresume hr hmode
  | other _ hr => exact hresume hr hmode

/-- A process that is left in the wait loop of `attemptSend` has returned nothing. -/
theorem ret_of_waiting {st : RmpState} {m : Outgoing} (hv : st.Valid) (h : rmpStep st i = some r)
    (hmode : r.state.mode = .waiting m) : r.ret = none := by
  have hcalls := calls_of_waiting (rmpStep_move hv h).1 hmode
  cases hret : r.ret with
  | none => rfl
  | some x =>
    cases x with
    | sendTo result =>
      obtain ⟨m', hm'⟩ := hcalls (.sent r.state.outgoing result) (by simp [localEvents, hret])
      cases hm'
    | listen result src id bytes delivered =>
      obtain ⟨m', hm'⟩ := hcalls (.listened result src id bytes delivered)
        (by simp [localEvents, hret])
      cases hm'

/-- A process that reads is blocked in `recvfrom`. -/
theorem mode_of_read {st : RmpState} {x : RmpAddress × Datagram} (h : rmpStep st i = some r)
    (hread : i.read = some x) : st.mode ≠ .idle := by
  cases i with
  | recvfrom outcome o =>
    intro hidle
    cases hcall : st.call <;> rw [RmpState.mode, hcall] at hidle <;> try cases hidle
    rw [rmpStep, hcall] at h
    cases h
  | rmpListen | rmpSendTo | loop => cases hread

theorem whole_initial (h : s.Initial) : Whole nodes size s := by
  obtain ⟨hproc, -, hhist⟩ := h
  have hview : ∀ n, (s.view n).mode = .idle ∧ ∀ k, (s.view n).slot k = none := by
    intro n
    obtain ⟨garbage, hg⟩ := hproc n
    rw [view, hg]
    exact ⟨rfl, fun _ => rfl⟩
  refine ⟨fun n len hmode => ?_, by simp [hhist, Network.called], fun R k id bytes hslot => ?_,
    by simp [hhist]⟩
  · rw [(hview n).1] at hmode
    cases hmode
  · rw [(hview R).2] at hslot
    cases hslot

/-- Whatever a process waits for, its buffer has room for a message. -/
theorem Whole.capacity (hinv : Whole nodes size s) (hsize : size ≤ maxMessageSize)
    (hran : rmpStep (s.proc n) i = some r) {x : RmpAddress × Datagram} (hread : i.read = some x) :
    size ≤ (s.view n).mode.capacity := by
  cases hmode : (s.view n).mode with
  | idle => exact absurd hmode (mode_of_read hran hread)
  | listening len => exact hinv.room n len hmode
  | waiting m => exact hsize

/-- **A step cuts nothing off.** -/
theorem Whole.step (hinv : Whole nodes size s) (hauth : Authentic nodes s) (hbare : s.BareHeaders)
    (hnodes : Set.InjOn RmpAddress.sinAddr nodes) (hsize : size ≤ maxMessageSize)
    (hroom : Roomy size (.step n i)) (h : udpStep s (.step n i) = some s') : Whole nodes size s' := by
  obtain ⟨r, rest, hran, hproc, -, hhist, -, hread⟩ := result_of_udpStep h
  obtain ⟨hmove, -⟩ := rmpStep_move (hauth.valid n) hran
  have hview : ∀ R, s'.view R = if R = n then r.state.view else s.view R := by
    intro R
    rw [view, hproc, Function.update_apply]
    split <;> rfl
  have hold : ∀ {S R id bytes}, Called s.history S R id bytes → Called s'.history S R id bytes :=
    fun hc => hhist ▸ hc.append _
  refine ⟨fun R len hmode => ?_, fun S R m hm => ?_, fun R k id bytes hslot => ?_,
    fun R k src id bytes delivered hmem hk => ?_⟩
  · rw [hview] at hmode
    split at hmode
    · obtain ⟨_, _, rfl⟩ := input_of_listening (hauth.valid n) hran hmode
      exact hroom
    · exact hinv.room R len hmode
  · rw [hhist, called_append] at hm
    obtain hm | hm := List.mem_append.1 hm
    · exact hinv.called S R m hm
    · obtain ⟨e, he, heq⟩ := List.mem_map.1 (mem_called.1 hm).1
      obtain ⟨rfl, rfl⟩ := Prod.mk.inj heq
      obtain ⟨o, rfl⟩ := input_of_call he
      exact hroom
  · rw [hview] at hslot
    split at hslot
    · next hR =>
      subst hR
      obtain ⟨src, d, hr, htype, hupdate⟩ | ⟨-, hkept⟩ := hmove.slot_cases
      · have hupdate : r.state.view.slot = _ := hupdate
        rw [hupdate, Function.update_apply] at hslot
        split at hslot
        · next hk =>
          obtain ⟨rfl, rfl⟩ := Prod.mk.inj (Option.some.inj hslot)
          obtain ⟨m, hm, hbody⟩ := hauth.data _ (hread _ _ hr) htype
          have hbody : d = m.datagram := hbody
          have hfits := (hinv.called _ _ m hm).trans (hinv.capacity hsize hran hr)
          refine ⟨src, hauth.src _ (hread _ _ hr), hk.symm, hold ⟨m, hm, by rw [hbody]; rfl, ?_⟩⟩
          rw [hbody]
          exact (List.take_of_length_le hfits).symm
        · obtain ⟨S, hS, hhash, hc⟩ := hinv.slot R k id bytes hslot
          exact ⟨S, hS, hhash, hold hc⟩
      · obtain ⟨S, hS, hhash, hc⟩ := hinv.slot R k id bytes (hkept k _ hslot)
        exact ⟨S, hS, hhash, hold hc⟩
    · obtain ⟨S, hS, hhash, hc⟩ := hinv.slot R k id bytes hslot
      exact ⟨S, hS, hhash, hold hc⟩
  · rw [hhist] at hmem
    obtain hmem | hmem := List.mem_append.1 hmem
    · obtain ⟨hc, hlen⟩ := hinv.listened R k src id bytes delivered hmem hk
      exact ⟨hold hc, hlen⟩
    · obtain ⟨e, he, heq⟩ := List.mem_map.1 hmem
      obtain ⟨rfl, rfl⟩ := Prod.mk.inj heq
      obtain ⟨len, d, hmode, hr, htype, rfl, ⟨message, hslot, rfl, rfl, -⟩ | ⟨-, hle, -⟩⟩ :=
        hmove.listened he hk
      · obtain ⟨S, hS, hhash, m, hm, hid, rfl⟩ := hinv.slot n _ _ _ hslot
        obtain rfl : S = src := hnodes hS (hauth.src _ (hread _ _ hr)) (rmpAddressHash_inj.1 hhash)
        have hfits := (hinv.called _ _ m hm).trans (hinv.room n len hmode)
        rw [List.take_of_length_le hfits]
        exact ⟨hold ⟨m, hm, hid, rfl⟩, rfl⟩
      · -- the SYN_ACK that was read is a bare header
        have hnil : d.payload = [] := hbare.payload _ (hread _ _ hr) (by simp [htype])
        simp only [hnil, List.take_nil, List.length_nil] at hle
        omega

end Step

/-- **Messages arrive whole**: between hosts with distinct IP addresses that draw distinct message
ids, over a network of any behaviour. -/
theorem whole_of_reach {nodes : Finset RmpAddress} {size : ℕ}
    (hnodes : Set.InjOn RmpAddress.sinAddr nodes) (hsize : size ≤ maxMessageSize) {s : Network}
    (h : Reach udpStep (fun s a => Distinct nodes s a ∧ Roomy size a) Initial s) :
    Whole nodes size s := by
  refine h.invariant_of (J := fun s => Authentic nodes s ∧ s.BareHeaders)
    (fun s hs => ⟨?_, ?_⟩) (fun _ => whole_initial) ?_
  · exact authentic_of_reach hnodes (hs.mono fun _ _ _ hok hstep => ⟨hok.1, hstep⟩)
  · exact hs.invariant (fun _ => bareHeaders_initial) fun _ _ _ hI _ => bareHeaders_step hI
  · rintro s a s' ⟨hauth, hbare⟩ hI ⟨-, hroom⟩ hstep
    cases a with
    | step n i => exact hI.step hauth hbare hnodes hsize hroom hstep
    | lose k =>
      obtain rfl := Option.some.inj hstep
      exact ⟨hI.room, hI.called, hI.slot, hI.listened⟩
    | copy k =>
      obtain rfl := Option.some.inj hstep
      exact ⟨hI.room, hI.called, hI.slot, hI.listened⟩

end Dchat.RMP.Network
