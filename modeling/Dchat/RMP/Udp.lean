import Dchat.RMP.Network

/-!
# RMP over a network of any behaviour

Two properties of runs over `udpStep`, where a link may lose, delay, reorder and duplicate.

* `no_sender_blocked`: if nothing is lost and no timer expires, a process waits in `attemptSend`
  only while its DATA or the ACK it waits for is under way, so that no process waits when nothing
  is under way. What else happens to the datagrams, and how the senders wait for each other, does
  not matter.
* `returned_once`: the message of a call is returned at most once, in the runs in which no process
  reads a DATA again after it has returned its message. A process forgets an id once it has returned
  the message, so that one late copy of a DATA is enough for a second return
  (`not_returned_once`).
-/

namespace Dchat.RMP.Network

open Runs

/-! ## No sender is blocked -/

/-- Nothing is lost and no timer expires. -/
def Lossless (s : Network) : Action → Prop
  | .step n i => Prompt (s.proc n) i
  | .lose _ => False
  | .copy _ => True

instance (s : Network) : DecidablePred s.Lossless
  | .step n i => inferInstanceAs (Decidable (Prompt (s.proc n) i))
  | .lose _ => inferInstanceAs (Decidable False)
  | .copy _ => inferInstanceAs (Decidable True)

/-- For every message waited for, its DATA or an ACK of it is under way. -/
def Answerable (s : Network) : Prop :=
  ∀ n m, (s.view n).mode = .waiting m →
    ⟨n, m.dest, m.datagram⟩ ∈ s.inFlight ∨
      ∃ d, ⟨m.dest, n, d⟩ ∈ s.inFlight ∧ d.type = .ack ∧ d.id = m.id

/-- A DATA read is acknowledged. -/
theorem ack_of_move {late faulty : Prop} {v v' : View} {src : RmpAddress} {d : Datagram}
    {out : Output} {es : List LocalEvent} (h : Move late faulty v (some (src, d)) out es v')
    (hl : ¬ late) (ht : d.type = .data) : (src, ⟨.ack, d.id, []⟩) ∈ out := by
  cases h with
  | data ht' hs => simp [hs.resolve_right fun h => hl h.1]
  | ack ht' | acked ht' | deliver ht' | consume ht' | stale ht' | other ht' => simp [ht] at ht'

theorem answerable_step {s s' : Network} {a : Action} (hv : s.Valid) (hinv : s.Answerable)
    (hok : s.Lossless a) (h : udpStep s a = some s') : s'.Answerable := by
  cases a with
  | lose k => exact hok.elim
  | copy k =>
    obtain rfl := Option.some.inj h
    intro n m hw
    rcases hinv n m hw with hin | ⟨d, hin, hd⟩
    · exact Or.inl (List.mem_append_left _ hin)
    · exact Or.inr ⟨d, List.mem_append_left _ hin, hd⟩
  | step n i =>
    obtain ⟨rest, out, es, hm, -, hread⟩ := udpStep_moved hv h
    have hl : ¬ ¬ Prompt (s.proc n) i := fun hp => hp hok
    -- whatever was under way is still so, unless it is what the step reads
    have hkept : ∀ p ∈ s.inFlight, p ∈ s'.inFlight ∨
        ∃ src d, i.read = some (src, d) ∧ p = ⟨src, n, d⟩ := by
      intro p hp
      rw [hm.inFlight]
      rcases hread with ⟨-, rfl⟩ | ⟨src, d, hr, -, rfl⟩
      · exact Or.inl (List.mem_append_left _ hp)
      · by_cases hpe : p = ⟨src, n, d⟩
        · exact Or.inr ⟨src, d, hr, hpe⟩
        · exact Or.inl (List.mem_append_left _ ((List.mem_erase_of_ne hpe).2 hp))
    have hsent : ∀ q ∈ out, (⟨n, q.1, q.2⟩ : Flight) ∈ s'.inFlight := by
      intro q hq
      rw [hm.inFlight]
      exact List.mem_append_right _ (List.mem_map.2 ⟨q, hq, rfl⟩)
    intro b m hw
    -- a message already waited for keeps its DATA or its ACK
    have hold : (s.view b).mode = .waiting m →
        (b = n → ∀ src d, i.read = some (src, d) → d.type = .ack →
          ¬ (m.dest = src ∧ m.id = d.id)) →
        ⟨b, m.dest, m.datagram⟩ ∈ s'.inFlight ∨
          ∃ d, ⟨m.dest, b, d⟩ ∈ s'.inFlight ∧ d.type = .ack ∧ d.id = m.id := by
      intro hwait hnot
      rcases hinv b m hwait with hin | ⟨d, hin, ht, hid⟩
      · rcases hkept _ hin with hin' | ⟨src, d, hr, heq⟩
        · exact Or.inl hin'
        · obtain ⟨rfl, rfl, rfl⟩ := (Links.Packet.mk.injEq ..).mp heq
          have hmove := hm.move
          rw [hr] at hmove
          exact Or.inr ⟨_, hsent _ (ack_of_move hmove hl rfl), rfl, rfl⟩
      · rcases hkept _ hin with hin' | ⟨src, d', hr, heq⟩
        · exact Or.inr ⟨d, hin', ht, hid⟩
        · obtain ⟨rfl, rfl, rfl⟩ := (Links.Packet.mk.injEq ..).mp heq
          exact absurd ⟨rfl, hid.symm⟩ (hnot rfl _ _ hr ht)
    by_cases hbn : b = n
    · subst hbn
      rcases hm.move.waiting_cases hw with ⟨-, -, -, hs⟩ | ⟨hwait, hnot⟩
      · have hout : (m.dest, m.datagram) ∈ out := by simp [hs.resolve_right fun h => hl h.1]
        exact Or.inl (hsent _ hout)
      · exact hold hwait fun _ => hnot
    · rw [hm.view_ne b hbn] at hw
      exact hold hw fun he => absurd he hbn

theorem answerable_of_reach {s : Network} (h : Reach udpStep Lossless Initial s) :
    s.Answerable := by
  refine h.invariant_of (J := Valid) (fun _ => valid_of_reach) ?_
    (fun _ _ _ hv hI hok hs => answerable_step hv hI hok hs)
  intro s h0 n m hw
  obtain ⟨garbage, hg⟩ := h0.1 n
  rw [view, hg] at hw
  cases hw

/-- **No deadlock among blocked senders**: with nothing lost and no timer expiring, no process is
in the wait loop of `attemptSend` when nothing is under way. -/
theorem no_sender_blocked {s : Network} (h : Reach udpStep Lossless Initial s)
    (hq : s.inFlight = []) (n : RmpAddress) (frame : SendFrame) :
    (s.proc n).call ≠ .sending frame ∧ (s.proc n).call ≠ .polling frame := by
  have hmode : ∀ m, (s.proc n).mode ≠ .waiting m := by
    intro m hw
    rcases answerable_of_reach h n m hw with hin | ⟨d, hin, -⟩
    · simp [hq] at hin
    · simp [hq] at hin
  constructor
  · intro hc
    exact hmode (s.proc n).outgoing (by rw [RmpState.mode, hc])
  · intro hc
    exact hmode (s.proc n).outgoing (by rw [RmpState.mode, hc])

theorem no_sender_blocked_exchange :
    ∃ s : Network, returned ⟨1, 1⟩ ⟨2, 1⟩ s.history = [(7, [104, 105])] ∧ s.inFlight = [] ∧
      ∀ n frame, (s.proc n).call ≠ .sending frame ∧ (s.proc n).call ≠ .polling frame := by
  obtain ⟨s, hs, hres⟩ := Option.map_eq_some_iff.1
    (show (exec udpStep Lossless start exchange).map
        (fun s => (returned ⟨1, 1⟩ ⟨2, 1⟩ s.history, s.inFlight)) =
      some ([(7, [104, 105])], []) by decide)
  obtain ⟨hret, hq⟩ := Prod.mk.inj hres
  exact ⟨s, hret, hq, no_sender_blocked (reach_exec _ (.start initial_start) hs) hq⟩

/-! ## A message is returned at most once -/

/-- A process does not read a DATA whose message it has already returned. -/
def Unreturned (s : Network) : Action → Prop
  | .step n i => ∀ p ∈ i.read, p.2.type = .data → p.2.id ∉ (returned p.1 n s.history).map Prod.fst
  | _ => True

instance (s : Network) : DecidablePred s.Unreturned
  | .step n i => inferInstanceAs (Decidable (∀ p ∈ i.read, p.2.type = .data →
      p.2.id ∉ (returned p.1 n s.history).map Prod.fst))
  | .lose _ => inferInstanceAs (Decidable True)
  | .copy _ => inferInstanceAs (Decidable True)

/-- Every datagram comes from a process of `nodes`, no id is returned twice to one process with one
source, and no process holds a message it has already returned. -/
structure OnceInv (nodes : Finset RmpAddress) (s : Network) : Prop where
  valid : s.Valid
  src : ∀ p ∈ s.inFlight, p.src ∈ nodes
  nodup : ∀ S R, ((returned S R s.history).map Prod.fst).Nodup
  slot : ∀ S ∈ nodes, ∀ R id bytes, (s.view R).slot (rmpAddressHash S) = some (id, bytes) →
    id ∉ (returned S R s.history).map Prod.fst

theorem onceInv_initial {nodes : Finset RmpAddress} {s : Network} (h : s.Initial) :
    OnceInv nodes s := by
  refine ⟨valid_initial s h, by simp [h.2.1], ?_, ?_⟩
  · simp [h.2.2, returned]
  · simp [h.2.2, returned]

/-- The process returns the message of a slot, which leaves the slot. -/
theorem OnceInv.slot_of_returned {nodes : Finset RmpAddress} {s s' : Network} {n src : RmpAddress}
    {id₀ : MessageId} {bytes : Bytes} {len : ℕ} (hinv : OnceInv nodes s)
    (hsame : ∀ S ∈ nodes, rmpAddressHash S = rmpAddressHash src → S = src)
    (hview_ne : ∀ m, m ≠ n → s'.view m = s.view m)
    (hview : s'.view n = ⟨.idle, Function.update (s.view n).slot (rmpAddressHash src) none⟩)
    (hret : ∀ S R, returned S R s'.history =
      returned S R s.history ++ if n = R ∧ src = S then [(id₀, bytes.take len)] else []) :
    ∀ S ∈ nodes, ∀ R id m, (s'.view R).slot (rmpAddressHash S) = some (id, m) →
      id ∉ (returned S R s'.history).map Prod.fst := by
  intro S hS R id m hsl
  rw [hret]
  by_cases hR : R = n
  · subst hR
    rw [hview] at hsl
    by_cases hSsrc : S = src
    · subst hSsrc
      simp at hsl
    · have hne : rmpAddressHash S ≠ rmpAddressHash src := fun he => hSsrc (hsame S hS he)
      simp only [Function.update_of_ne hne] at hsl
      rw [if_neg fun h => hSsrc h.2.symm, List.append_nil]
      exact hinv.slot S hS R id m hsl
  · rw [hview_ne R hR] at hsl
    rw [if_neg fun h => hR h.1.symm, List.append_nil]
    exact hinv.slot S hS R id m hsl

/-- The process returns nothing; what it takes into a slot has not been returned. -/
theorem OnceInv.slot_of_silent {nodes : Finset RmpAddress} {s s' : Network} {n : RmpAddress}
    {i : Input} {rest : List Flight} {out : Output} {es : List LocalEvent} (hinv : OnceInv nodes s)
    (hm : s.Moved s' n i rest out es)
    (hsame : ∀ src d, i.read = some (src, d) →
      ∀ S ∈ nodes, rmpAddressHash S = rmpAddressHash src → S = src)
    (hu : s.Unreturned (.step n i)) :
    ∀ S ∈ nodes, ∀ R id m, (s'.view R).slot (rmpAddressHash S) = some (id, m) →
      id ∉ (returned S R s.history).map Prod.fst := by
  intro S hS R id m hsl
  by_cases hR : R = n
  · subst hR
    rcases hm.move.slot_cases with ⟨src, d, hr, ht, hs'⟩ | ⟨-, hs'⟩
    · rw [hs'] at hsl
      by_cases hk : rmpAddressHash S = rmpAddressHash src
      · obtain rfl := hsame src d hr S hS hk
        rw [Function.update_self] at hsl
        obtain ⟨rfl, -⟩ := Prod.mk.inj (Option.some.inj hsl)
        exact hu _ hr ht
      · rw [Function.update_of_ne hk] at hsl
        exact hinv.slot S hS R id m hsl
    · exact hinv.slot S hS R id m (hs' _ _ hsl)
  · rw [hm.view_ne R hR] at hsl
    exact hinv.slot S hS R id m hsl

theorem onceInv_step {nodes : Finset RmpAddress} (hnodes : Set.InjOn RmpAddress.sinAddr nodes)
    {s s' : Network} {a : Action} (hinv : OnceInv nodes s) (hd : Distinct nodes s a)
    (hu : s.Unreturned a) (h : udpStep s a = some s') : OnceInv nodes s' := by
  obtain ⟨hvalid, ⟨n, i, rest, out, es, rfl, hm, hrest, hread⟩ | ⟨hview, hhist, hin⟩⟩ :=
    udpStep_cases hinv.valid h
  · have hsame : ∀ src d, i.read = some (src, d) →
        ∀ S ∈ nodes, rmpAddressHash S = rmpAddressHash src → S = src :=
      fun src d hr S hS he => hnodes hS (hinv.src _ (hread _ _ hr)) (rmpAddressHash_inj.1 he)
    have hflight : ∀ p ∈ s'.inFlight, p.src ∈ nodes := by
      rw [hm.inFlight]
      intro p hp
      rcases List.mem_append.1 hp with hp | hp
      · exact hinv.src p (hrest p hp)
      · obtain ⟨q, -, rfl⟩ := List.mem_map.1 hp
        exact hd.1
    rcases returned_of_move hm.move with ⟨src, d, bytes, len, hr, ht, hslot, -, hv', -, rfl⟩ | hnone
    · have hret : ∀ S R, returned S R s'.history =
          returned S R s.history ++ if n = R ∧ src = S then [(d.id, bytes.take len)] else [] := by
        intro S R
        rw [hm.history, returned_append]
        exact congrArg _ (returned_singleton n S R src _ _ _)
      refine ⟨hvalid, hflight, fun S R => ?_,
        hinv.slot_of_returned (hsame src d hr) hm.view_ne hv' hret⟩
      rw [hret]
      by_cases hSR : n = R ∧ src = S
      · obtain ⟨rfl, rfl⟩ := hSR
        have hnot := hinv.slot src (hinv.src _ (hread _ _ hr)) n d.id bytes hslot
        rw [if_pos ⟨rfl, rfl⟩, List.map_append]
        exact List.Nodup.append (hinv.nodup src n) (by simp) (by simpa using hnot)
      · rw [if_neg hSR, List.append_nil]
        exact hinv.nodup S R
    · have hret : ∀ S R, returned S R s'.history = returned S R s.history := by
        intro S R
        rw [hm.history, returned_append, hnone n S R, List.append_nil]
      refine ⟨hvalid, hflight, fun S R => hret S R ▸ hinv.nodup S R, fun S hS R id m hsl => ?_⟩
      rw [hret]
      exact hinv.slot_of_silent hm hsame hu S hS R id m hsl
  · refine ⟨hvalid, fun p hp => hinv.src p (hin p hp), hhist ▸ hinv.nodup, ?_⟩
    rw [hview, hhist]
    exact hinv.slot

/-- **At-most-once delivery**, in every run in which no process reads a DATA whose message it has
already returned: the message of a call of `RMP_sendTo` is returned at most once. -/
theorem returned_once {nodes : Finset RmpAddress} (hnodes : Set.InjOn RmpAddress.sinAddr nodes)
    {s : Network} (h : Reach udpStep (fun s a => Distinct nodes s a ∧ s.Unreturned a) Initial s)
    (S R : RmpAddress) :
    (results S R s.history).Sublist (returned S R s.history) ∧
      ∀ m ∈ called S R s.history, ((returned S R s.history).map Prod.fst).count m.id ≤ 1 := by
  refine ⟨results_sublist h S R, fun m _ => ?_⟩
  have hinv : OnceInv nodes s := h.invariant (fun _ => onceInv_initial)
    fun _ _ _ hI hok hs => onceInv_step hnodes hI hok.1 hok.2 hs
  exact List.nodup_iff_count_le_one.1 (hinv.nodup S R) m.id

theorem returned_once_exchange :
    ∃ s : Network, called ⟨1, 1⟩ ⟨2, 1⟩ s.history = [⟨⟨2, 1⟩, 7, [104, 105]⟩] ∧
      results ⟨1, 1⟩ ⟨2, 1⟩ s.history = [(7, [104, 105])] ∧
      (results ⟨1, 1⟩ ⟨2, 1⟩ s.history).Sublist (returned ⟨1, 1⟩ ⟨2, 1⟩ s.history) ∧
      ∀ m ∈ called ⟨1, 1⟩ ⟨2, 1⟩ s.history,
        ((returned ⟨1, 1⟩ ⟨2, 1⟩ s.history).map Prod.fst).count m.id ≤ 1 := by
  obtain ⟨s, hs, hres⟩ := Option.map_eq_some_iff.1
    (show (exec udpStep (fun s a => Distinct twoHosts s a ∧ s.Unreturned a) start exchange).map
        (fun s => (called ⟨1, 1⟩ ⟨2, 1⟩ s.history, results ⟨1, 1⟩ ⟨2, 1⟩ s.history)) =
      some ([⟨⟨2, 1⟩, 7, [104, 105]⟩], [(7, [104, 105])]) by decide)
  obtain ⟨hcall, hret⟩ := Prod.mk.inj hres
  exact ⟨s, hcall, hret,
    returned_once twoHosts_injOn (reach_exec _ (.start initial_start) hs) ⟨1, 1⟩ ⟨2, 1⟩⟩

/-- The exchange, with the DATA duplicated once: the copy is read after the message has been
returned, is acknowledged, and the sender answers the ACK. -/
def lateCopy : List Action :=
  .step ⟨1, 1⟩ (.sendTo ⟨2, 1⟩ [104, 105] 7) :: .copy 0 :: exchange.tail ++
    [.step ⟨2, 1⟩ (.listen 8), .step ⟨2, 1⟩ (.receive ⟨1, 1⟩ .data 7 [104, 105]),
      .step ⟨1, 1⟩ (.listen 8), .step ⟨1, 1⟩ (.receive ⟨2, 1⟩ .ack 7 []),
      .step ⟨2, 1⟩ (.listen 8), .step ⟨2, 1⟩ (.receive ⟨1, 1⟩ .synAck 7 [])]

/-- Without the restriction the property fails: after `lateCopy` the message of one call has been
returned twice. -/
theorem not_returned_once :
    ¬ ∀ A B : RmpAddress, A.sinAddr ≠ B.sinAddr → ∀ s, Reach udpStep (Distinct {A, B}) Initial s →
      ∀ S R, ∀ m ∈ called S R s.history,
        ((returned S R s.history).map Prod.fst).count m.id ≤ 1 := by
  intro h
  obtain ⟨s, hs, hres⟩ := Option.map_eq_some_iff.1
    (show (exec udpStep (Distinct {⟨1, 1⟩, ⟨2, 1⟩}) start lateCopy).map
        (fun s => (returned ⟨1, 1⟩ ⟨2, 1⟩ s.history, called ⟨1, 1⟩ ⟨2, 1⟩ s.history)) =
      some ([(7, [104, 105]), (7, [104, 105])], [⟨⟨2, 1⟩, 7, [104, 105]⟩]) by decide)
  obtain ⟨hret, hcall⟩ := Prod.mk.inj hres
  have hle := h ⟨1, 1⟩ ⟨2, 1⟩ (by decide) s (reach_exec _ (.start initial_start) hs) ⟨1, 1⟩ ⟨2, 1⟩
    ⟨⟨2, 1⟩, 7, [104, 105]⟩ (by rw [hcall]; simp)
  rw [hret] at hle
  revert hle
  decide

end Dchat.RMP.Network
