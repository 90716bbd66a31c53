import Dchat.RMP.Network
import Mathlib.Data.List.Forall2

/-!
# Acknowledged messages over a network that loses nothing

Runs over in-order links in which nothing is lost, no timer expires and no call of the operating
system fails. The datagrams between a sender `S` and a receiver `R` then form a conversation: one
DATA, one ACK and one SYN_ACK for each call, at most the last two of which overlap with the next
call (`Phase`).

The code does not ensure that a message whose call has returned reaches a caller of `RMP_listen`
(`not_completed_returned`), for two reasons. The wait loop of `attemptSend` reads the SYN_ACK of a
held message like any other datagram, frees the message and drops it. And a DATA that comes while a
message of the same host is held, from another port, takes its place. `Careful` excludes the steps
that do either; in the runs of the others `completed_returned` matches the calls that have returned
with the messages returned at their destination, one to one and in order, whenever nothing is under
way.
-/

namespace Dchat.RMP.Network

open Links Runs List

/-- Nothing is lost, no timer expires, no call of the operating system fails, and datagrams are read
into buffers of at least `c` bytes. -/
def Undisturbed (c : ℕ) (s : Network) : Action → Prop
  | .step n i => Prompt (s.proc n) i ∧ i.Sound ∧ (i.read ≠ none → c ≤ (s.view n).mode.capacity)
  | .lose _ => False
  | .copy _ => False

/-- A DATA is only read while no message of its host is held, and the wait loop of `attemptSend`
does not read the SYN_ACK of a held message. -/
def Careful (s : Network) : Action → Prop
  | .step n i => ∀ p ∈ i.read,
      (p.2.type = .data → (s.view n).slot (rmpAddressHash p.1) = none) ∧
      (p.2.type = .synAck → (s.view n).mode.isWaiting = true →
        ((s.view n).slot (rmpAddressHash p.1)).map Prod.fst ≠ some p.2.id)
  | _ => True

instance (c : ℕ) (s : Network) : DecidablePred (Undisturbed c s)
  | .step n i => inferInstanceAs (Decidable (Prompt (s.proc n) i ∧ i.Sound ∧ _))
  | .lose _ => inferInstanceAs (Decidable False)
  | .copy _ => inferInstanceAs (Decidable False)

instance (s : Network) : DecidablePred s.Careful
  | .step n i => inferInstanceAs (Decidable (∀ p ∈ i.read,
      (p.2.type = .data → (s.view n).slot (rmpAddressHash p.1) = none) ∧
      (p.2.type = .synAck → (s.view n).mode.isWaiting = true →
        ((s.view n).slot (rmpAddressHash p.1)).map Prod.fst ≠ some p.2.id)))
  | .lose _ => inferInstanceAs (Decidable True)
  | .copy _ => inferInstanceAs (Decidable True)

/-- The messages of the calls of `RMP_sendTo` by `S` for `R` that have returned, in order. -/
def completed (S R : RmpAddress) (history : List (RmpAddress × LocalEvent)) : List Outgoing :=
  history.filterMap fun
    | (n, .sent m _) => if n = S ∧ m.dest = R then some m else none
    | _ => none

/-- What is returned for a message: its id and a prefix of it, all of it if it has at most `c`
bytes. -/
def Match (c : ℕ) (m : Outgoing) (x : MessageId × Bytes) : Prop :=
  x.1 = m.id ∧ x.2 <+: m.message ∧ min c m.message.length ≤ x.2.length

theorem Match.take {c len : ℕ} {m : Outgoing} {id : MessageId} {bytes : Bytes}
    (h : Match c m (id, bytes)) (hlen : c ≤ len) : Match c m (id, bytes.take len) := by
  obtain ⟨hid, hpre, hle⟩ := h
  refine ⟨hid, (List.take_prefix _ _).trans hpre, ?_⟩
  simp only [length_take] at hle ⊢
  omega

theorem match_of_datagram {c len : ℕ} (m : Outgoing) (hlen : c ≤ len) :
    Match c m (m.id, m.message.take len) := by
  refine ⟨rfl, List.take_prefix _ _, ?_⟩
  simp only [length_take]
  omega

/-! ## Conversations -/

/-- The sender and the receiver of the message a datagram is about. -/
def conversation (p : Flight) : RmpAddress × RmpAddress :=
  if p.body.type = .ack then (p.dst, p.src) else (p.src, p.dst)

/-- The datagrams about the messages of `S` for `R`. -/
def between (S R : RmpAddress) (l : List Flight) : List Flight :=
  l.filter fun p => conversation p = (S, R)

theorem between_append (S R : RmpAddress) (l l' : List Flight) :
    between S R (l ++ l') = between S R l ++ between S R l' :=
  filter_append ..

/-- The message `S` is waiting to have acknowledged by `R`. -/
def asked (mode : Mode) (R : RmpAddress) : Option Outgoing :=
  match mode with
  | .waiting m => if m.dest = R then some m else none
  | _ => none

/-- What is known about the messages of `S` for `R`: the datagrams under way, the message being
sent, the message held, the messages of the calls that have returned and the messages returned. -/
structure Pair where
  flight : List Flight
  asked : Option Outgoing
  held : Option (MessageId × Bytes)
  completed : List Outgoing
  returned : List (MessageId × Bytes)

/-- The pair `S`, `R` of a network. -/
def pair (s : Network) (S R : RmpAddress) : Pair where
  flight := between S R s.inFlight
  asked := Network.asked (s.view S).mode R
  held := (s.view R).slot (rmpAddressHash S)
  completed := Network.completed S R s.history
  returned := Network.returned S R s.history

/-- How far the sender and the receiver of a message have come. -/
inductive Phase (c : ℕ) (S R : RmpAddress) : Pair → Prop
  /-- Nothing is going on. -/
  | rest {held : Option (MessageId × Bytes)} {sent : List Outgoing}
      {ret : List (MessageId × Bytes)} (h : Forall₂ (Match c) sent ret) :
      Phase c S R ⟨[], none, held, sent, ret⟩
  /-- The DATA is under way. -/
  | asking {m : Outgoing} {held : Option (MessageId × Bytes)} {sent : List Outgoing}
      {ret : List (MessageId × Bytes)} (hd : m.dest = R) (h : Forall₂ (Match c) sent ret) :
      Phase c S R ⟨[⟨S, R, m.datagram⟩], some m, held, sent, ret⟩
  /-- The message is held and the ACK is under way. -/
  | answered {m : Outgoing} {bytes : Bytes} {sent : List Outgoing}
      {ret : List (MessageId × Bytes)} (hd : m.dest = R) (hm : Match c m (m.id, bytes))
      (h : Forall₂ (Match c) sent ret) :
      Phase c S R ⟨[⟨R, S, ⟨.ack, m.id, []⟩⟩], some m, some (m.id, bytes), sent, ret⟩
  /-- The call has returned and the SYN_ACK is under way. -/
  | closing {m : Outgoing} {bytes : Bytes} {sent : List Outgoing}
      {ret : List (MessageId × Bytes)} (hm : Match c m (m.id, bytes))
      (h : Forall₂ (Match c) sent ret) :
      Phase c S R ⟨[⟨S, R, ⟨.synAck, m.id, []⟩⟩], none, some (m.id, bytes), sent ++ [m], ret⟩
  /-- The call has returned and the SYN_ACK is under way, ahead of the DATA of the next call. -/
  | next {m m' : Outgoing} {bytes : Bytes} {sent : List Outgoing}
      {ret : List (MessageId × Bytes)} (hd : m'.dest = R) (hm : Match c m (m.id, bytes))
      (h : Forall₂ (Match c) sent ret) :
      Phase c S R ⟨[⟨S, R, ⟨.synAck, m.id, []⟩⟩, ⟨S, R, m'.datagram⟩], some m',
        some (m.id, bytes), sent ++ [m], ret⟩

/-- The receiver holds a message of the sender. -/
def Pair.Holding (p : Pair) : Prop := ∃ q l, p.flight = q :: l ∧ q.body.type ≠ .data

namespace Phase

variable {c : ℕ} {S R : RmpAddress}

/-- The datagrams of a conversation are all on one link. -/
theorem same_link {p : Pair} (h : Phase c S R p) :
    ∀ q ∈ p.flight, ∀ q' ∈ p.flight, q'.On q.src q.dst := by
  cases h with
  | rest => simp
  | asking | answered | closing => simp [Packet.On]
  | next => simp [Packet.On]

theorem held_of_holding {p : Pair} (h : Phase c S R p) (hh : p.Holding) : p.held ≠ none := by
  obtain ⟨q, l, hl, hq⟩ := hh
  cases h with
  | rest => simp at hl
  | asking =>
    obtain ⟨rfl, -⟩ := cons_eq_cons.1 hl
    exact absurd rfl hq
  | answered | closing | next => simp

/-- When nothing is held, what the receiver holds does not matter. -/
theorem of_not_holding {p : Pair} (h : Phase c S R p) (hh : ¬ p.Holding)
    (held : Option (MessageId × Bytes)) : Phase c S R { p with held := held } := by
  cases h with
  | rest h => exact .rest h
  | asking hd h => exact .asking hd h
  | answered | closing | next => exact absurd ⟨_, _, rfl, by simp⟩ hh

/-- The sender calls `RMP_sendTo` again. -/
theorem call {p : Pair} (h : Phase c S R p) {m : Outgoing} (hd : m.dest = R)
    (hn : p.asked = none) :
    Phase c S R { p with flight := p.flight ++ [⟨S, R, m.datagram⟩], asked := some m } := by
  cases h with
  | rest h => exact .asking hd h
  | closing hm h => exact .next hd hm h
  | asking | answered | next => cases hn

/-- The receiver reads the DATA, holds the message and answers. -/
theorem data {p : Pair} (h : Phase c S R p) {d : Datagram} {l : List Flight}
    (hl : p.flight = ⟨S, R, d⟩ :: l) (ht : d.type = .data) {len : ℕ} (hlen : c ≤ len) :
    Phase c S R { p with
      flight := l ++ [⟨R, S, ⟨.ack, d.id, []⟩⟩], held := some (d.id, d.payload.take len) } := by
  cases h with
  | rest => cases hl
  | asking hd h =>
    obtain ⟨hp, rfl⟩ := cons_eq_cons.1 hl
    obtain ⟨-, -, rfl⟩ := (Packet.mk.injEq ..).mp hp
    exact .answered hd (match_of_datagram _ hlen) h
  | answered | closing | next =>
    obtain ⟨hp, -⟩ := cons_eq_cons.1 hl
    obtain ⟨-, -, rfl⟩ := (Packet.mk.injEq ..).mp hp
    cases ht

/-- The sender reads the ACK: it is that of the message it is sending. -/
theorem ack {p : Pair} (h : Phase c S R p) {d : Datagram} {l : List Flight}
    (hl : p.flight = ⟨R, S, d⟩ :: l) (ht : d.type = .ack) :
    ∃ m, p.asked = some m ∧ m.id = d.id ∧
      Phase c S R { p with
        flight := l ++ [⟨S, R, ⟨.synAck, d.id, []⟩⟩], asked := none,
        completed := p.completed ++ [m] } := by
  cases h with
  | rest => cases hl
  | @answered m bytes sent ret hd hm h =>
    obtain ⟨hp, rfl⟩ := cons_eq_cons.1 hl
    obtain ⟨-, -, rfl⟩ := (Packet.mk.injEq ..).mp hp
    exact ⟨m, rfl, rfl, .closing hm h⟩
  | asking | closing | next =>
    obtain ⟨hp, -⟩ := cons_eq_cons.1 hl
    obtain ⟨-, -, rfl⟩ := (Packet.mk.injEq ..).mp hp
    cases ht

/-- The receiver reads the SYN_ACK: it is that of the message it holds. -/
theorem synAck {p : Pair} (h : Phase c S R p) {d : Datagram} {l : List Flight}
    (hl : p.flight = ⟨S, R, d⟩ :: l) (ht : d.type = .synAck) :
    ∃ bytes, p.held = some (d.id, bytes) ∧ ∀ len, c ≤ len →
      Phase c S R { p with
        flight := l, held := none, returned := p.returned ++ [(d.id, bytes.take len)] } := by
  have hforall : ∀ {sent : List Outgoing} {ret : List (MessageId × Bytes)} {m : Outgoing}
      {bytes : Bytes} {len : ℕ}, Forall₂ (Match c) sent ret → Match c m (m.id, bytes) → c ≤ len →
      Forall₂ (Match c) (sent ++ [m]) (ret ++ [(m.id, bytes.take len)]) :=
    fun h hm hlen => rel_append h (.cons (hm.take hlen) .nil)
  cases h with
  | rest => cases hl
  | closing hm h =>
    obtain ⟨hp, rfl⟩ := cons_eq_cons.1 hl
    obtain ⟨-, -, rfl⟩ := (Packet.mk.injEq ..).mp hp
    exact ⟨_, rfl, fun len hlen => .rest (hforall h hm hlen)⟩
  | next hd hm h =>
    obtain ⟨hp, rfl⟩ := cons_eq_cons.1 hl
    obtain ⟨-, -, rfl⟩ := (Packet.mk.injEq ..).mp hp
    exact ⟨_, rfl, fun len hlen => .asking hd (hforall h hm hlen)⟩
  | asking | answered =>
    obtain ⟨hp, -⟩ := cons_eq_cons.1 hl
    obtain ⟨-, -, rfl⟩ := (Packet.mk.injEq ..).mp hp
    cases ht

/-- No datagram of another type is under way. -/
theorem type_ne_other {p : Pair} (h : Phase c S R p) {q : Flight} (hq : q ∈ p.flight) (v : ℕ) :
    q.body.type ≠ .other v := by
  cases h with
  | rest => cases hq
  | asking | answered | closing =>
    obtain rfl := mem_singleton.1 hq
    simp [Outgoing.datagram]
  | next =>
    rcases mem_cons.1 hq with rfl | hq
    · simp
    · obtain rfl := mem_singleton.1 hq
      simp [Outgoing.datagram]

end Phase

/-- The invariant: every pair is in some phase, and of the senders of one host at most one has a
message held by a receiver. -/
structure Orderly (c : ℕ) (s : Network) : Prop where
  valid : s.Valid
  phase : ∀ S R, Phase c S R (s.pair S R)
  exclusive : ∀ S T R, rmpAddressHash S = rmpAddressHash T → (s.pair S R).Holding →
    (s.pair T R).Holding → S = T

theorem orderly_initial {c : ℕ} {s : Network} (h : s.Initial) : Orderly c s := by
  have hpair : ∀ S R, ∃ held, s.pair S R = ⟨[], none, held, [], []⟩ := by
    intro S R
    obtain ⟨garbage, hg⟩ := h.1 S
    refine ⟨(s.view R).slot (rmpAddressHash S), ?_⟩
    rw [pair, h.2.1, h.2.2, view, hg]
    rfl
  refine ⟨valid_initial s h, fun S R => ?_, ?_⟩
  · obtain ⟨held, hp⟩ := hpair S R
    rw [hp]
    exact .rest .nil
  · rintro S T R - ⟨q, l, hl, -⟩ -
    obtain ⟨held, hp⟩ := hpair S R
    simp [hp] at hl

/-! ## What a step does to a pair -/

section Step

variable {s s' : Network} {n : RmpAddress} {i : Input} {rest : List Flight} {out : Output}
  {es : List LocalEvent}

theorem completed_append (S R : RmpAddress) (h h' : List (RmpAddress × LocalEvent)) :
    completed S R (h ++ h') = completed S R h ++ completed S R h' :=
  filterMap_append

/-- A pair after a step, from what the step reads, sends and logs. -/
theorem Moved.pair_eq (hm : s.Moved s' n i rest out es) (S R : RmpAddress) :
    s'.pair S R =
      ⟨between S R rest ++ between S R (packets n out),
        asked (if S = n then (s'.view n).mode else (s.view S).mode) R,
        (if R = n then (s'.view n).slot else (s.view R).slot) (rmpAddressHash S),
        completed S R s.history ++ completed S R (es.map fun e => (n, e)),
        returned S R s.history ++ returned S R (es.map fun e => (n, e))⟩ := by
  have hmode : (s'.view S).mode = if S = n then (s'.view n).mode else (s.view S).mode := by
    by_cases h : S = n
    · rw [if_pos h, h]
    · rw [if_neg h, hm.view_ne S h]
  have hslot : (s'.view R).slot = if R = n then (s'.view n).slot else (s.view R).slot := by
    by_cases h : R = n
    · rw [if_pos h, h]
    · rw [if_neg h, hm.view_ne R h]
  rw [pair, hm.inFlight, hm.history, hmode, hslot, between_append, completed_append,
    returned_append]

/-- The datagram a step reads is the first of its conversation; the other conversations stay. -/
theorem between_takeFirst {c : ℕ} (ho : Orderly c s) {src : RmpAddress} {d : Datagram}
    (ht : takeFirst src n s.inFlight = some (d, rest)) (S R : RmpAddress) :
    between S R s.inFlight =
      (if conversation ⟨src, n, d⟩ = (S, R) then [⟨src, n, d⟩] else []) ++ between S R rest := by
  obtain ⟨l, r, hl, rfl, hnot⟩ := takeFirst_eq_some ht
  by_cases hk : conversation ⟨src, n, d⟩ = (S, R)
  · -- whatever is ahead of it in its conversation would be on its link
    have hnil : between S R l = [] := by
      refine filter_eq_nil_iff.2 fun q hq hqk => hnot q hq ?_
      have hmem : ∀ q', q' ∈ l ∨ q' = (⟨src, n, d⟩ : Flight) → conversation q' = (S, R) →
          q' ∈ (s.pair S R).flight := by
        intro q' hq' hqk'
        refine mem_filter.2 ⟨?_, by simpa using hqk'⟩
        rw [hl]
        rcases hq' with hq' | rfl
        · exact mem_append_left _ hq'
        · exact mem_append_right _ mem_cons_self
      exact (ho.phase S R).same_link _ (hmem _ (Or.inr rfl) hk) q
        (hmem q (Or.inl hq) (by simpa using hqk))
    have hone : between S R ((⟨src, n, d⟩ : Flight) :: r) = ⟨src, n, d⟩ :: between S R r := by
      simp [between, hk]
    rw [hl, between_append, between_append, hnil, hone, if_pos hk]
    rfl
  · have hnone : between S R ((⟨src, n, d⟩ : Flight) :: r) = between S R r := by
      simp [between, hk]
    rw [hl, between_append, between_append, hnone, if_neg hk, nil_append]

/-- What a sender waits for is still what it was, if it is for the process that moves. -/
theorem Moved.pair_of_asked (hm : s.Moved s' n i rest out es)
    (hasked : ∀ R, asked (s'.view n).mode R = asked (s.view n).mode R) (S R : RmpAddress) :
    (s'.pair S R).asked = (s.pair S R).asked := by
  rw [hm.pair_eq]
  by_cases hS : S = n
  · simp only [pair, hS, if_true, hasked]
  · simp only [if_neg hS, pair]

/-- Of a pair that the step sends, reads and logs nothing about, only what is held may change. -/
theorem Moved.pair_of_silent (hm : s.Moved s' n i rest out es)
    (hasked : ∀ R, asked (s'.view n).mode R = asked (s.view n).mode R) {S R : RmpAddress}
    (hflight : between S R s.inFlight = between S R rest)
    (hout : between S R (packets n out) = [])
    (hes : completed S R (es.map fun e => (n, e)) = [] ∧
      returned S R (es.map fun e => (n, e)) = []) :
    s'.pair S R = { s.pair S R with held := (s'.pair S R).held } := by
  have ha := hm.pair_of_asked hasked S R
  rw [hm.pair_eq] at ha ⊢
  simp only at ha
  rw [ha, hout, hes.1, hes.2, append_nil, append_nil, append_nil, ← hflight]
  rfl

/-- A step changes what is held for the senders of one host only. -/
theorem Moved.held_of_update (hm : s.Moved s' n i rest out es) {k : ℤ}
    {x : Option (MessageId × Bytes)}
    (hslot : (s'.view n).slot = Function.update (s.view n).slot k x) (S R : RmpAddress) :
    (s'.pair S R).held = (s.pair S R).held ∨ R = n ∧ rmpAddressHash S = k := by
  rw [hm.pair_eq]
  simp only [pair]
  by_cases hR : R = n
  · by_cases hk : rmpAddressHash S = k
    · exact Or.inr ⟨hR, hk⟩
    · left
      rw [if_pos hR, hslot, Function.update_of_ne hk, hR]
  · left
    rw [if_neg hR]

variable {c : ℕ}

/-- Of two senders of one host one is still the only one whose message is held, if no pair starts
to hold one. -/
theorem exclusive_of_imp (ho : Orderly c s)
    (h : ∀ S R, (s'.pair S R).Holding → (s.pair S R).Holding) :
    ∀ S T R, rmpAddressHash S = rmpAddressHash T → (s'.pair S R).Holding →
      (s'.pair T R).Holding → S = T :=
  fun S T R hk hS hT => ho.exclusive S T R hk (h S R hS) (h T R hT)

/-- `RMP_listen` is called, or the wait loop goes round. -/
theorem orderly_still (hm : s.Moved s' n i s.inFlight [] []) (hvalid : s'.Valid)
    (ho : Orderly c s) (hslot : (s'.view n).slot = (s.view n).slot)
    (hasked : ∀ R, asked (s'.view n).mode R = asked (s.view n).mode R) : Orderly c s' := by
  have hpair : ∀ S R, s'.pair S R = s.pair S R := by
    intro S R
    have ha := hm.pair_of_asked hasked S R
    rw [hm.pair_eq] at ha ⊢
    simp only at ha
    rw [ha, hslot]
    by_cases hR : R = n
    · simp [pair, hR, between, completed, returned]
    · simp [pair, hR, between, completed, returned]
  exact ⟨hvalid, fun S R => hpair S R ▸ ho.phase S R,
    exclusive_of_imp ho fun S R h => hpair S R ▸ h⟩

/-- `RMP_sendTo` is called. -/
theorem orderly_call {m : Outgoing}
    (hm : s.Moved s' n i s.inFlight [(m.dest, m.datagram)] [.call m]) (hvalid : s'.Valid)
    (ho : Orderly c s) (hidle : (s.view n).mode = .idle)
    (hv' : s'.view n = ⟨.waiting m, (s.view n).slot⟩) : Orderly c s' := by
  have hpair : ∀ S R, s'.pair S R =
      if n = S ∧ m.dest = R then
        { s.pair S R with
          flight := (s.pair S R).flight ++ [⟨S, R, m.datagram⟩], asked := some m }
      else s.pair S R := by
    intro S R
    rw [hm.pair_eq, hv']
    have hslot : (if R = n then (s.view n).slot else (s.view R).slot) = (s.view R).slot := by
      by_cases hR : R = n
      · rw [if_pos hR, hR]
      · rw [if_neg hR]
    by_cases hSR : n = S ∧ m.dest = R
    · obtain ⟨rfl, rfl⟩ := hSR
      simp [hslot, pair, between, conversation, Outgoing.datagram, asked, completed, returned]
    · have hasked : asked (if S = n then .waiting m else (s.view S).mode) R =
          asked (s.view S).mode R := by
        by_cases hS : S = n
        · have hd : m.dest ≠ R := fun hd => hSR ⟨hS.symm, hd⟩
          simp [hS, hidle, asked, hd]
        · rw [if_neg hS]
      simp [hslot, hasked, pair, between, conversation, Outgoing.datagram, completed, returned, hSR]
  refine ⟨hvalid, fun S R => ?_, exclusive_of_imp ho fun S R hh => ?_⟩
  · rw [hpair]
    split
    · next hSR =>
      refine (ho.phase S R).call hSR.2 ?_
      simp [pair, ← hSR.1, hidle, asked]
    · exact ho.phase S R
  · rw [hpair] at hh
    split at hh
    · obtain ⟨q, l, hl, hq⟩ := hh
      cases hf : (s.pair S R).flight with
      | nil =>
        simp only [hf, nil_append] at hl
        obtain ⟨rfl, -⟩ := cons_eq_cons.1 hl
        exact absurd rfl hq
      | cons q' l' =>
        simp only [hf, cons_append] at hl
        obtain ⟨rfl, -⟩ := cons_eq_cons.1 hl
        exact ⟨q', l', hf, hq⟩
    · exact hh

/-- A DATA is read, held and acknowledged. -/
theorem orderly_data {src : RmpAddress} {d : Datagram}
    (hm : s.Moved s' n i rest [(src, ⟨.ack, d.id, []⟩)] es) (hvalid : s'.Valid)
    (ho : Orderly c s) (ht : takeFirst src n s.inFlight = some (d, rest)) (htype : d.type = .data)
    (hfree : (s.view n).slot (rmpAddressHash src) = none) {len : ℕ} (hlen : c ≤ len)
    (hslot : (s'.view n).slot = Function.update (s.view n).slot (rmpAddressHash src)
      (some (d.id, d.payload.take len)))
    (hasked : ∀ R, asked (s'.view n).mode R = asked (s.view n).mode R)
    (hes : ∀ S R, completed S R (es.map fun e => (n, e)) = [] ∧
      returned S R (es.map fun e => (n, e)) = []) : Orderly c s' := by
  have hconv : conversation ⟨src, n, d⟩ = (src, n) := by simp [conversation, htype]
  have hheld : (s.pair src n).held = none := hfree
  have hactive : (s.pair src n).flight = ⟨src, n, d⟩ :: between src n rest := by
    have := between_takeFirst ho ht src n
    rwa [if_pos hconv] at this
  have hpair : s'.pair src n = { s.pair src n with
      flight := between src n rest ++ [⟨n, src, ⟨.ack, d.id, []⟩⟩]
      held := some (d.id, d.payload.take len) } := by
    have ha := hm.pair_of_asked hasked src n
    rw [hm.pair_eq] at ha ⊢
    simp only at ha
    rw [ha, (hes src n).1, (hes src n).2, hslot]
    simp [pair, between, conversation]
  have hother : ∀ S R, (S, R) ≠ (src, n) →
      s'.pair S R = { s.pair S R with held := (s'.pair S R).held } := by
    intro S R hne
    refine hm.pair_of_silent hasked ?_ ?_ (hes S R)
    · have := between_takeFirst ho ht S R
      rwa [hconv, if_neg (Ne.symm hne)] at this
    · simpa [between, conversation] using fun h₁ h₂ => hne (by rw [h₁, h₂])
  -- a sender of the same host has no message held
  have hfreed : ∀ S, rmpAddressHash S = rmpAddressHash src → ¬ (s.pair S n).Holding := by
    intro S hk hh
    refine (ho.phase S n).held_of_holding hh ?_
    simpa [pair, hk] using hheld
  refine ⟨hvalid, fun S R => ?_, fun S T R hk hS hT => ?_⟩
  · by_cases hSR : (S, R) = (src, n)
    · obtain ⟨rfl, rfl⟩ := Prod.mk.inj hSR
      rw [hpair]
      exact (ho.phase S R).data hactive htype hlen
    · rw [hother S R hSR]
      rcases hm.held_of_update hslot S R with hh | ⟨rfl, hk⟩
      · rw [hh]
        exact ho.phase S R
      · exact (ho.phase S R).of_not_holding (hfreed S hk) _
  · have hold : ∀ U, (U, R) ≠ (src, n) → (s'.pair U R).Holding → (s.pair U R).Holding := by
      intro U hU hh
      rw [hother U R hU] at hh
      exact hh
    by_cases hSR : (S, R) = (src, n)
    · obtain ⟨rfl, rfl⟩ := Prod.mk.inj hSR
      by_cases hTR : (T, R) = (S, R)
      · exact (Prod.mk.inj hTR).1.symm
      · exact absurd (hold T hTR hT) (hfreed T hk.symm)
    · by_cases hTR : (T, R) = (src, n)
      · obtain ⟨rfl, rfl⟩ := Prod.mk.inj hTR
        exact absurd (hold S hSR hS) (hfreed S hk)
      · exact ho.exclusive S T R hk (hold S hSR hS) (hold T hTR hT)

/-- The ACK waited for is read and answered, and `RMP_sendTo` returns. -/
theorem orderly_ack {src : RmpAddress} {d : Datagram} {m : Outgoing} {result : ℤ}
    (hm : s.Moved s' n i rest [(src, ⟨.synAck, d.id, []⟩)] [.sent m result]) (hvalid : s'.Valid)
    (ho : Orderly c s) (ht : takeFirst src n s.inFlight = some (d, rest)) (htype : d.type = .ack)
    (hwait : (s.view n).mode = .waiting m) (hdest : m.dest = src)
    (hv' : s'.view n = ⟨.idle, (s.view n).slot⟩) : Orderly c s' := by
  have hconv : conversation ⟨src, n, d⟩ = (n, src) := by simp [conversation, htype]
  have hslot : ∀ R, (if R = n then (s.view n).slot else (s.view R).slot) = (s.view R).slot := by
    intro R
    by_cases hR : R = n
    · rw [if_pos hR, hR]
    · rw [if_neg hR]
  have hactive : (s.pair n src).flight = ⟨src, n, d⟩ :: between n src rest := by
    have := between_takeFirst ho ht n src
    rwa [if_pos hconv] at this
  obtain ⟨m', hasked, -, hphase⟩ := (ho.phase n src).ack hactive htype
  obtain rfl : m' = m := by simpa [pair, hwait, asked, hdest] using hasked.symm
  have hpair : s'.pair n src = { s.pair n src with
      flight := between n src rest ++ [⟨n, src, ⟨.synAck, d.id, []⟩⟩], asked := none
      completed := (s.pair n src).completed ++ [m'] } := by
    rw [hm.pair_eq, hv', hslot]
    simp [pair, between, conversation, asked, completed, returned, hdest]
  have hother : ∀ S R, (S, R) ≠ (n, src) → s'.pair S R = s.pair S R := by
    intro S R hne
    have hflight : between S R s.inFlight = between S R rest := by
      have := between_takeFirst ho ht S R
      rwa [hconv, if_neg (Ne.symm hne)] at this
    have hnone : between S R (packets n [(src, ⟨.synAck, d.id, []⟩)]) = [] := by
      simpa [between, conversation] using fun h₁ h₂ => hne (by rw [h₁, h₂])
    have hdone : completed S R [(n, .sent m' result)] = [] := by
      simpa [completed, hdest] using fun h₁ h₂ => hne (by rw [h₁, h₂])
    have hmode : asked (if S = n then .idle else (s.view S).mode) R =
        asked (s.view S).mode R := by
      by_cases hS : S = n
      · have hd : m'.dest ≠ R := fun hd => hne (by rw [hS, ← hd, hdest])
        simp [hS, hwait, asked, hd]
      · rw [if_neg hS]
    rw [hm.pair_eq, hv', hslot, hnone, hmode, map_singleton, hdone, append_nil, append_nil,
      ← hflight]
    simp [pair, returned]
  refine ⟨hvalid, fun S R => ?_, exclusive_of_imp ho fun S R hh => ?_⟩
  · by_cases hSR : (S, R) = (n, src)
    · obtain ⟨rfl, rfl⟩ := Prod.mk.inj hSR
      rw [hpair]
      exact hphase
    · rw [hother S R hSR]
      exact ho.phase S R
  · by_cases hSR : (S, R) = (n, src)
    · obtain ⟨rfl, rfl⟩ := Prod.mk.inj hSR
      exact ⟨_, _, hactive, by simp [htype]⟩
    · rwa [hother S R hSR] at hh

/-- `RMP_listen` reads the SYN_ACK of a held message and returns the message. -/
theorem orderly_deliver {src : RmpAddress} {d : Datagram} {bytes : Bytes} {len : ℕ}
    (hm : s.Moved s' n i rest [] [.listened bytes.length src d.id (bytes.take len) true])
    (hvalid : s'.Valid) (ho : Orderly c s) (ht : takeFirst src n s.inFlight = some (d, rest))
    (htype : d.type = .synAck) (hmode : (s.view n).mode = .listening len) (hlen : c ≤ len)
    (hbytes : (s.view n).slot (rmpAddressHash src) = some (d.id, bytes))
    (hv' : s'.view n = ⟨.idle, Function.update (s.view n).slot (rmpAddressHash src) none⟩) :
    Orderly c s' := by
  have hconv : conversation ⟨src, n, d⟩ = (src, n) := by simp [conversation, htype]
  have hasked : ∀ R, asked (s'.view n).mode R = asked (s.view n).mode R := by
    intro R
    rw [hv', hmode]
    rfl
  have hactive : (s.pair src n).flight = ⟨src, n, d⟩ :: between src n rest := by
    have := between_takeFirst ho ht src n
    rwa [if_pos hconv] at this
  have hholding : (s.pair src n).Holding := ⟨_, _, hactive, by simp [htype]⟩
  obtain ⟨bytes', hheld, hphase⟩ := (ho.phase src n).synAck hactive htype
  obtain rfl : bytes' = bytes := by
    have : some (d.id, bytes) = some (d.id, bytes') := hbytes.symm.trans hheld
    simpa using this.symm
  have hpair : s'.pair src n = { s.pair src n with
      flight := between src n rest, held := none
      returned := (s.pair src n).returned ++ [(d.id, bytes'.take len)] } := by
    have ha := hm.pair_of_asked hasked src n
    rw [hm.pair_eq] at ha ⊢
    simp only at ha
    rw [ha, hv']
    simp [pair, between, completed, returned]
  have hother : ∀ S R, (S, R) ≠ (src, n) →
      s'.pair S R = { s.pair S R with held := (s'.pair S R).held } := by
    intro S R hne
    refine hm.pair_of_silent hasked ?_ rfl ⟨rfl, ?_⟩
    · have := between_takeFirst ho ht S R
      rwa [hconv, if_neg (Ne.symm hne)] at this
    · rw [map_singleton, returned_singleton, if_neg fun h => hne (by rw [h.1, h.2])]
  have hslot : (s'.view n).slot = Function.update (s.view n).slot (rmpAddressHash src) none := by
    rw [hv']
  refine ⟨hvalid, fun S R => ?_, exclusive_of_imp ho fun S R hh => ?_⟩
  · by_cases hSR : (S, R) = (src, n)
    · obtain ⟨rfl, rfl⟩ := Prod.mk.inj hSR
      rw [hpair]
      exact hphase len hlen
    · rw [hother S R hSR]
      rcases hm.held_of_update hslot S R with hh | ⟨rfl, hk⟩
      · rw [hh]
        exact ho.phase S R
      · refine (ho.phase S R).of_not_holding (fun hh => hSR ?_) _
        rw [ho.exclusive S src R hk hh hholding]
  · by_cases hSR : (S, R) = (src, n)
    · obtain ⟨rfl, rfl⟩ := Prod.mk.inj hSR
      exact hholding
    · rw [hother S R hSR] at hh
      exact hh

end Step

/-- A process that goes on after a datagram waits for what it was waiting for, and returns no
message. -/
theorem asked_of_resume {late : Prop} {limit : ℕ} {src : RmpAddress} {id : MessageId}
    {mode mode' : Mode} {es : List LocalEvent} (h : Resume late limit src id mode es mode')
    (hl : ¬ late) (n : RmpAddress) :
    (∀ R, asked mode' R = asked mode R) ∧
      ∀ S R, completed S R (es.map fun e => (n, e)) = [] ∧
        returned S R (es.map fun e => (n, e)) = [] := by
  cases h with
  | listening => exact ⟨fun _ => rfl, fun _ _ => ⟨rfl, rfl⟩⟩
  | waiting => exact ⟨fun _ => rfl, fun _ _ => ⟨rfl, rfl⟩⟩
  | failed h => exact absurd h hl

theorem orderly_step {c : ℕ} {s s' : Network} {a : Action} (ho : Orderly c s)
    (hu : Undisturbed c s a) (hc : s.Careful a) (h : fifoStep s a = some s') : Orderly c s' := by
  cases a with
  | lose k => exact hu.elim
  | copy k => exact hu.elim
  | step n i =>
    obtain ⟨hprompt, hsound, hcap⟩ := hu
    obtain ⟨rest, out, es, hm, hvalid, hread⟩ := fifoStep_moved ho.valid h
    have hl : ¬ ¬ Prompt (s.proc n) i := fun hp => hp hprompt
    have hf : ¬ ¬ i.Sound := fun hs => hs hsound
    have hrest : i.read = none → rest = s.inFlight := by
      rcases hread with ⟨-, hr⟩ | ⟨_, _, hr, -⟩
      · exact fun _ => hr
      · simp [hr]
    have htake : ∀ src d, i.read = some (src, d) →
        takeFirst src n s.inFlight = some (d, rest) := by
      rcases hread with ⟨hr, -⟩ | ⟨_, _, hr, ht⟩
      · simp [hr]
      · intro src d hr'
        obtain ⟨rfl, rfl⟩ := Prod.mk.inj (Option.some.inj (hr.symm.trans hr'))
        exact ht
    have hphase : ∀ src d, i.read = some (src, d) → d.type ≠ .ack →
        (s.pair src n).flight = ⟨src, n, d⟩ :: between src n rest := by
      intro src d hr ht
      have := between_takeFirst ho (htake src d hr) src n
      rwa [if_pos (by simp [conversation, ht])] at this
    have hmove := hm.move
    generalize hv : s.view n = v at hmove
    generalize hv' : s'.view n = v' at hmove
    generalize hr : i.read = r at hmove
    cases hmove with
    | listen hclean =>
      obtain rfl := hrest hr
      obtain ⟨rfl, rfl⟩ := hclean.eq hl
      exact orderly_still hm hvalid ho (by rw [hv, hv']) fun R => by rw [hv, hv']; rfl
    | tidy hclean =>
      obtain rfl := hrest hr
      obtain ⟨rfl, rfl⟩ := hclean.eq hl
      exact orderly_still hm hvalid ho (by rw [hv, hv']) fun R => by rw [hv, hv']
    | call hs =>
      obtain rfl := hrest hr
      obtain rfl := hs.resolve_right fun h => hl h.1
      exact orderly_call hm hvalid ho (by rw [hv]) (by rw [hv, hv'])
    | callFailed hfail => exact absurd hfail hf
    | resend hlate => exact absurd hlate hl
    | giveUp hfail => exact (hfail.elim hl hf).elim
    | deaf hfail => exact (hfail.elim hl hf).elim
    | data ht hs hres =>
      obtain rfl := hs.resolve_right fun h => hl h.1
      obtain ⟨hasked, hes⟩ := asked_of_resume hres hl n
      have hcap := hcap (by simp [hr])
      rw [hv] at hcap
      exact orderly_data hm hvalid ho (htake _ _ hr) ht ((hc _ hr).1 ht) hcap
        (by rw [hv, hv']) (fun R => by rw [hv, hv']; exact hasked R) hes
    | @ack slot mode mode' src d out es ht hs hres hne =>
      -- every ACK under way is waited for
      have hflight := between_takeFirst ho (htake _ _ hr) n src
      rw [if_pos (by simp [conversation, ht])] at hflight
      obtain ⟨m, hasked, hid, -⟩ := (ho.phase n src).ack hflight ht
      obtain ⟨hsame, -⟩ := asked_of_resume hres hl n
      have hwait : asked mode' src = some m := by
        rw [hsame]
        simpa only [pair, hv] using hasked
      cases mode' with
      | idle | listening => cases hwait
      | waiting m' =>
        simp only [asked, Option.ite_none_right_eq_some, Option.some.injEq] at hwait
        obtain ⟨hdest, rfl⟩ := hwait
        exact absurd ⟨hdest, hid⟩ (hne m' rfl)
    | acked ht hs hdest hid =>
      obtain rfl := hs.resolve_right fun h => hl h.1
      exact orderly_ack hm hvalid ho (htake _ _ hr) ht (by rw [hv]) hdest (by rw [hv, hv'])
    | deliver ht hslot =>
      have hcap := hcap (by simp [hr])
      rw [hv] at hcap
      exact orderly_deliver hm hvalid ho (htake _ _ hr) ht (by rw [hv]) hcap (by rw [hv]; exact hslot)
        (by rw [hv, hv'])
    | consume ht hslot =>
      have := (hc _ hr).2 ht (by rw [hv]; rfl)
      rw [hv] at this
      simp [hslot] at this
    | @stale slot mode mode' src d es ht hslot hres =>
      -- every SYN_ACK under way is that of a held message
      obtain ⟨bytes, hheld, -⟩ := (ho.phase src n).synAck (hphase _ _ hr (by simp [ht])) ht
      simp only [pair, hv] at hheld
      exact absurd hheld (hslot bytes)
    | @other slot mode mode' src d es value ht hres =>
      have hflight := hphase _ _ hr (by simp [ht])
      exact absurd ht ((ho.phase src n).type_ne_other (by rw [hflight]; exact mem_cons_self) value)

/-- **An acknowledged message is not lost**, in every run of careful steps: when nothing is under
way, the calls of `S` for `R` that have returned match, one to one and in order, the messages
returned at `R` with source `S`. -/
theorem completed_returned {c : ℕ} {s : Network}
    (h : Reach fifoStep (fun s a => Undisturbed c s a ∧ s.Careful a) Initial s)
    (hq : s.inFlight = []) (S R : RmpAddress) :
    Forall₂ (Match c) (completed S R s.history) (returned S R s.history) := by
  have ho : Orderly c s := h.invariant (fun _ => orderly_initial)
    fun _ _ _ hI hok hs => orderly_step hI hok.1 hok.2 hs
  have hphase := ho.phase S R
  have hflight : (s.pair S R).flight = [] := by
    rw [pair, hq]
    rfl
  generalize hp : s.pair S R = p at hphase
  rw [hp] at hflight
  cases hphase with
  | rest hmatch =>
    rw [pair, Pair.mk.injEq] at hp
    obtain ⟨-, -, -, rfl, rfl⟩ := hp
    exact hmatch
  | asking | answered | closing | next => cases hflight

theorem completed_returned_exchange :
    ∃ s : Network, completed ⟨1, 1⟩ ⟨2, 1⟩ s.history = [⟨⟨2, 1⟩, 7, [104, 105]⟩] ∧
      Forall₂ (Match 8) (completed ⟨1, 1⟩ ⟨2, 1⟩ s.history)
        (returned ⟨1, 1⟩ ⟨2, 1⟩ s.history) := by
  obtain ⟨s, hs, hres⟩ := Option.map_eq_some_iff.1
    (show (exec fifoStep (fun s a => Undisturbed 8 s a ∧ s.Careful a) start exchange).map
        (fun s => (s.inFlight, completed ⟨1, 1⟩ ⟨2, 1⟩ s.history)) =
      some ([], [⟨⟨2, 1⟩, 7, [104, 105]⟩]) by decide)
  obtain ⟨hq, hdone⟩ := Prod.mk.inj hres
  exact ⟨s, hdone,
    completed_returned (reach_exec _ (.start initial_start) hs) hq ⟨1, 1⟩ ⟨2, 1⟩⟩

/-- Two hosts send to each other: the second starts while it holds the message of the first, whose
SYN_ACK then comes to the wait loop of its `attemptSend`. -/
def crossing : List Action :=
  [.step ⟨1, 1⟩ (.sendTo ⟨2, 1⟩ [104, 105] 7),
    .step ⟨2, 1⟩ (.listen 8), .step ⟨2, 1⟩ (.receive ⟨1, 1⟩ .data 7 [104, 105]),
    .step ⟨2, 1⟩ (.sendTo ⟨1, 1⟩ [33] 8),
    .step ⟨1, 1⟩ .wait, .step ⟨1, 1⟩ (.receive ⟨2, 1⟩ .ack 7 []),
    .step ⟨2, 1⟩ .wait, .step ⟨2, 1⟩ (.receive ⟨1, 1⟩ .synAck 7 []),
    .step ⟨1, 1⟩ (.listen 8), .step ⟨1, 1⟩ (.receive ⟨2, 1⟩ .data 8 [33]),
    .step ⟨2, 1⟩ .wait, .step ⟨2, 1⟩ (.receive ⟨1, 1⟩ .ack 8 []),
    .step ⟨1, 1⟩ (.listen 8), .step ⟨1, 1⟩ (.receive ⟨2, 1⟩ .synAck 8 [])]

/-- Without the restriction the property fails: after `crossing` the first host's call has returned
2, nothing is under way, and its message has not been returned. -/
theorem not_completed_returned :
    ¬ ∀ s, Reach fifoStep (Undisturbed 0) Initial s → s.inFlight = [] →
      ∀ S m result, (S, .sent m result) ∈ s.history → 0 ≤ result →
        m.id ∈ (returned S m.dest s.history).map Prod.fst := by
  intro h
  obtain ⟨s, hs, hres⟩ := Option.map_eq_some_iff.1
    (show (exec fifoStep (Undisturbed 0) start crossing).map
        (fun s => (s.inFlight, s.history)) =
      some ([], [(⟨1, 1⟩, .call ⟨⟨2, 1⟩, 7, [104, 105]⟩),
        (⟨2, 1⟩, .listened 0 ⟨1, 1⟩ 7 [] false), (⟨2, 1⟩, .call ⟨⟨1, 1⟩, 8, [33]⟩),
        (⟨1, 1⟩, .sent ⟨⟨2, 1⟩, 7, [104, 105]⟩ 2), (⟨1, 1⟩, .listened 0 ⟨2, 1⟩ 8 [] false),
        (⟨2, 1⟩, .sent ⟨⟨1, 1⟩, 8, [33]⟩ 1), (⟨1, 1⟩, .listened 1 ⟨2, 1⟩ 8 [33] true)])
      by decide)
  obtain ⟨hq, hhist⟩ := Prod.mk.inj hres
  have hmem := h s (reach_exec _ (.start initial_start) hs) hq ⟨1, 1⟩ ⟨⟨2, 1⟩, 7, [104, 105]⟩ 2
    (by rw [hhist]; simp) (by decide)
  rw [hhist] at hmem
  revert hmem
  decide

/-- The other restriction is needed too: two ports of one host send at the same time, and the
message of the second takes the place of that of the first, whose call returns all the same. -/
example : (exec fifoStep (Undisturbed 0) start
    [.step ⟨1, 1⟩ (.sendTo ⟨2, 1⟩ [104] 7), .step ⟨1, 2⟩ (.sendTo ⟨2, 1⟩ [105] 8),
      .step ⟨2, 1⟩ (.listen 8), .step ⟨2, 1⟩ (.receive ⟨1, 1⟩ .data 7 [104]),
      .step ⟨2, 1⟩ (.listen 8), .step ⟨2, 1⟩ (.receive ⟨1, 2⟩ .data 8 [105]),
      .step ⟨1, 1⟩ .wait, .step ⟨1, 1⟩ (.receive ⟨2, 1⟩ .ack 7 []),
      .step ⟨1, 2⟩ .wait, .step ⟨1, 2⟩ (.receive ⟨2, 1⟩ .ack 8 []),
      .step ⟨2, 1⟩ (.listen 8), .step ⟨2, 1⟩ (.receive ⟨1, 1⟩ .synAck 7 []),
      .step ⟨2, 1⟩ (.listen 8), .step ⟨2, 1⟩ (.receive ⟨1, 2⟩ .synAck 8 [])]).map
      (fun s => (s.inFlight, completed ⟨1, 1⟩ ⟨2, 1⟩ s.history,
        returned ⟨1, 1⟩ ⟨2, 1⟩ s.history)) =
    some ([], [⟨⟨2, 1⟩, 7, [104]⟩], []) := by
  decide

end Dchat.RMP.Network
