import Dchat.RMP.Moves
import Dchat.Foundations.Links
import Dchat.Foundations.Runs
import Mathlib.Data.Finset.Insert

/-!
# Processes exchanging datagrams

Any number of RMP processes, one at each address, over two kinds of network:

* `fifoStep`: every link delivers in order, and may lose datagrams (`Action.lose`);
* `udpStep`: a link delivers in any order, and may lose and duplicate datagrams (`Action.lose`,
  `Action.copy`).

A datagram is in `inFlight` from `sendto` until `recvfrom` returns it, so `inFlight = []` says that
none is on the network or unread in a socket. `history` lists the library calls and returns in the
order in which they happened.

`Network.Moved` is what a step of one process does to the network, and `fifoStep_moved`,
`udpStep_moved` derive it from `rmpStep_move`. A step of the first kind is one of the second
(`udpStep_of_fifoStep`). `called` and `returned` are what the properties of delivery compare: the
messages passed to `RMP_sendTo` and those that `RMP_listen` hands out of a receive buffer. What it
returns with a positive result is among the latter (`results_sublist`).
-/

namespace Dchat.RMP

open Links Runs

/-- A datagram under way. -/
abbrev Flight := Packet RmpAddress Datagram

/-- The state of the whole system. -/
structure Network where
  proc : RmpAddress → RmpState
  inFlight : List Flight
  history : List (RmpAddress × LocalEvent)

/-- One action: a step of the process at `node`, or the loss or the duplication of the `k`-th
datagram under way. -/
inductive Action
  | step (node : RmpAddress) (i : Input)
  | lose (k : ℕ)
  | copy (k : ℕ)

namespace Network

/-- No process has called the library yet. -/
def Initial (s : Network) : Prop :=
  (∀ n, ∃ garbage, s.proc n = RmpState.initial garbage) ∧ s.inFlight = [] ∧ s.history = []

/-- A network on which nothing has happened. -/
def start : Network := ⟨fun _ => RmpState.initial (blankBuffer ⟨0, 0⟩), [], []⟩

theorem initial_start : Initial start := ⟨fun _ => ⟨_, rfl⟩, rfl, rfl⟩

/-- Two hosts. -/
def twoHosts : Finset RmpAddress := {⟨1, 1⟩, ⟨2, 1⟩}

theorem twoHosts_injOn : Set.InjOn RmpAddress.sinAddr twoHosts := by
  intro a ha b hb h
  simp only [twoHosts, Finset.coe_insert, Finset.coe_singleton, Set.mem_insert_iff,
    Set.mem_singleton_iff] at ha hb
  rcases ha with rfl | rfl <;> rcases hb with rfl | rfl <;> simp_all

/-- A message sent from one host to another. -/
def exchange : List Action :=
  [.step ⟨1, 1⟩ (.sendTo ⟨2, 1⟩ [104, 105] 7),
    .step ⟨2, 1⟩ (.listen 8), .step ⟨2, 1⟩ (.receive ⟨1, 1⟩ .data 7 [104, 105]),
    .step ⟨1, 1⟩ .wait, .step ⟨1, 1⟩ (.receive ⟨2, 1⟩ .ack 7 []),
    .step ⟨2, 1⟩ (.listen 8), .step ⟨2, 1⟩ (.receive ⟨1, 1⟩ .synAck 7 [])]

/-- The views of the processes. -/
def view (s : Network) (n : RmpAddress) : View := (s.proc n).view

/-- The datagrams a process hands to the network. -/
def packets (n : RmpAddress) (out : Output) : List Flight := out.map fun p => ⟨n, p.1, p.2⟩

@[simp] theorem packets_nil (n : RmpAddress) : packets n [] = [] := rfl

@[simp] theorem packets_singleton (n a : RmpAddress) (d : Datagram) :
    packets n [(a, d)] = [⟨n, a, d⟩] := rfl

/-- The process at `n` takes a step, with `inFlight` what is left under way after its read. -/
def act (s : Network) (n : RmpAddress) (i : Input) (inFlight : List Flight) : Option Network :=
  (rmpStep (s.proc n) i).map fun r =>
    { proc := Function.update s.proc n r.state
      inFlight := inFlight ++ packets n r.out
      history := s.history ++ (localEvents i r).map fun e => (n, e) }

end Network

/-- A step over links that deliver in order and duplicate nothing. -/
def fifoStep (s : Network) : Action → Option Network
  | .step n i =>
    match i.read with
    | none => s.act n i s.inFlight
    | some (src, d) =>
      match takeFirst src n s.inFlight with
      | some (d', rest) => if d' = d then s.act n i rest else none
      | none => none
  | .lose k => some { s with inFlight := s.inFlight.eraseIdx k }
  | .copy _ => none

/-- A step over a network that loses, delays, reorders and duplicates. -/
def udpStep (s : Network) : Action → Option Network
  | .step n i =>
    match i.read with
    | none => s.act n i s.inFlight
    | some (src, d) =>
      if (⟨src, n, d⟩ : Flight) ∈ s.inFlight then s.act n i (s.inFlight.erase ⟨src, n, d⟩)
      else none
  | .lose k => some { s with inFlight := s.inFlight.eraseIdx k }
  | .copy k => some { s with inFlight := s.inFlight ++ s.inFlight[k]?.toList }

namespace Network

/-- The ids of the messages passed to `RMP_sendTo` by any process, in order. -/
def calledIds (history : List (RmpAddress × LocalEvent)) : List MessageId :=
  history.filterMap fun
    | (_, .call m) => some m.id
    | _ => none

/-- **What a step of the process at `n` does to the network**: a move of `n`, the datagrams it
sends put after `rest`, its calls and returns put at the end of the history. -/
structure Moved (s s' : Network) (n : RmpAddress) (i : Input) (rest : List Flight) (out : Output)
    (es : List LocalEvent) : Prop where
  move : Move (¬ Prompt (s.proc n) i) (¬ i.Sound) (s.view n) i.read out es (s'.view n)
  view_ne : ∀ m, m ≠ n → s'.view m = s.view m
  inFlight : s'.inFlight = rest ++ packets n out
  history : s'.history = s.history ++ es.map fun e => (n, e)
  ids : calledIds (es.map fun e => (n, e)) = i.newId.toList

/-- Every process is valid. -/
def Valid (s : Network) : Prop := ∀ n, (s.proc n).Valid

theorem valid_initial (s : Network) (h : s.Initial) : s.Valid := by
  intro n
  obtain ⟨garbage, hg⟩ := h.1 n
  rw [hg]
  exact RmpState.valid_initial garbage

theorem calledIds_localEvents (n : RmpAddress) (i : Input) (r : StepResult) :
    calledIds ((localEvents i r).map fun e => (n, e)) = i.newId.toList := by
  rcases r with ⟨st, out, _ | _ | _⟩ <;> cases i <;> rfl

theorem act_moved {s s' : Network} {n : RmpAddress} {i : Input} {rest : List Flight}
    (hv : s.Valid) (h : s.act n i rest = some s') :
    ∃ out es, Moved s s' n i rest out es ∧ s'.Valid := by
  obtain ⟨r, hr, rfl⟩ := Option.map_eq_some_iff.1 h
  obtain ⟨hm, hvalid⟩ := rmpStep_move (hv n) hr
  refine ⟨r.out, localEvents i r, ⟨?_, ?_, rfl, rfl, calledIds_localEvents n i r⟩, ?_⟩
  · simpa only [view, Function.update_self] using hm
  · intro m hmn
    simp only [view, Function.update_of_ne hmn]
  · intro m
    by_cases hmn : m = n
    · subst hmn
      simpa only [Function.update_self] using hvalid
    · simpa only [Function.update_of_ne hmn] using hv m

end Network

/-- A step over in-order links is a move of the process that takes it, and what it reads is the
oldest datagram of its link. -/
theorem fifoStep_moved {s s' : Network} {n : RmpAddress} {i : Input} (hv : s.Valid)
    (h : fifoStep s (.step n i) = some s') :
    ∃ rest out es, s.Moved s' n i rest out es ∧ s'.Valid ∧
      ((i.read = none ∧ rest = s.inFlight) ∨
        ∃ src d, i.read = some (src, d) ∧ takeFirst src n s.inFlight = some (d, rest)) := by
  rw [fifoStep] at h
  split at h
  · next hr =>
    obtain ⟨out, es, hm, hvalid⟩ := Network.act_moved hv h
    exact ⟨_, out, es, hm, hvalid, Or.inl ⟨hr, rfl⟩⟩
  · next src d hr =>
    split at h
    · next d' rest ht =>
      split at h
      · next hd =>
        obtain ⟨out, es, hm, hvalid⟩ := Network.act_moved hv h
        exact ⟨rest, out, es, hm, hvalid, Or.inr ⟨src, d, hr, hd ▸ ht⟩⟩
      · cases h
    · cases h

/-- A step over any network is a move of the process that takes it, and what it reads is under
way to it. -/
theorem udpStep_moved {s s' : Network} {n : RmpAddress} {i : Input} (hv : s.Valid)
    (h : udpStep s (.step n i) = some s') :
    ∃ rest out es, s.Moved s' n i rest out es ∧ s'.Valid ∧
      ((i.read = none ∧ rest = s.inFlight) ∨
        ∃ src d, i.read = some (src, d) ∧ (⟨src, n, d⟩ : Flight) ∈ s.inFlight ∧
          rest = s.inFlight.erase ⟨src, n, d⟩) := by
  rw [udpStep] at h
  split at h
  · next hr =>
    obtain ⟨out, es, hm, hvalid⟩ := Network.act_moved hv h
    exact ⟨_, out, es, hm, hvalid, Or.inl ⟨hr, rfl⟩⟩
  · next src d hr =>
    split at h
    · next hmem =>
      obtain ⟨out, es, hm, hvalid⟩ := Network.act_moved hv h
      exact ⟨_, out, es, hm, hvalid, Or.inr ⟨src, d, hr, hmem, rfl⟩⟩
    · cases h

/-- A step over in-order links is a step over a network of any behaviour. -/
theorem udpStep_of_fifoStep {s s' : Network} {a : Action} (h : fifoStep s a = some s') :
    udpStep s a = some s' := by
  cases a with
  | step n i =>
    rw [fifoStep] at h
    rw [udpStep]
    split at h
    · next hr => simpa only [hr] using h
    · next src d hr =>
      split at h
      · next d' rest ht =>
        split at h
        · next hd =>
          subst hd
          have hmem : (⟨src, n, d'⟩ : Flight) ∈ s.inFlight := mem_of_takeFirst ht
          simpa only [hr, if_pos hmem, takeFirst_eq_erase ht] using h
        · cases h
      · cases h
  | lose k => exact h
  | copy k => cases h

namespace Network

/-! ## Calls and returns -/

/-- The messages passed to `RMP_sendTo` by `S` for `R`, in order. -/
def called (S R : RmpAddress) (history : List (RmpAddress × LocalEvent)) : List Outgoing :=
  history.filterMap fun
    | (n, .call m) => if n = S ∧ m.dest = R then some m else none
    | _ => none

/-- The messages that `RMP_listen` handed to `R` out of a receive buffer with source `S`, in order,
with their ids. -/
def returned (S R : RmpAddress) (history : List (RmpAddress × LocalEvent)) :
    List (MessageId × Bytes) :=
  history.filterMap fun
    | (n, .listened _ src id bytes true) => if n = R ∧ src = S then some (id, bytes) else none
    | _ => none

/-- What `RMP_listen` returned to `R` with a positive result and source `S`, in order. -/
def results (S R : RmpAddress) (history : List (RmpAddress × LocalEvent)) :
    List (MessageId × Bytes) :=
  history.filterMap fun
    | (n, .listened k src id bytes _) => if 0 < k ∧ n = R ∧ src = S then some (id, bytes) else none
    | _ => none

/-- The processes that take steps are those of `nodes`, and no message id is drawn twice. -/
def Distinct (nodes : Finset RmpAddress) (s : Network) : Action → Prop
  | .step n i => n ∈ nodes ∧ ∀ id ∈ i.newId, id ∉ calledIds s.history
  | _ => True

instance (nodes : Finset RmpAddress) (s : Network) : DecidablePred (Distinct nodes s)
  | .step n i => inferInstanceAs (Decidable (n ∈ nodes ∧ ∀ id ∈ i.newId, _))
  | .lose _ => inferInstanceAs (Decidable True)
  | .copy _ => inferInstanceAs (Decidable True)

theorem mem_called {S R : RmpAddress} {m : Outgoing} {h : List (RmpAddress × LocalEvent)} :
    m ∈ called S R h ↔ (S, .call m) ∈ h ∧ m.dest = R := by
  rw [called, List.mem_filterMap]
  constructor
  · rintro ⟨⟨n, e⟩, hmem, he⟩
    cases e with
    | call m' =>
      simp only [Option.ite_none_right_eq_some, Option.some.injEq] at he
      obtain ⟨⟨rfl, hd⟩, rfl⟩ := he
      exact ⟨hmem, hd⟩
    | sent | listened => cases he
  · rintro ⟨hmem, hd⟩
    exact ⟨_, hmem, by simp [hd]⟩

theorem called_call (S R n : RmpAddress) (m : Outgoing) (h : List (RmpAddress × LocalEvent)) :
    called S R ((n, .call m) :: h) =
      if n = S ∧ m.dest = R then m :: called S R h else called S R h := by
  by_cases hn : n = S ∧ m.dest = R
  · simp [called, hn]
  · simp [called, hn]

theorem called_append (S R : RmpAddress) (h h' : List (RmpAddress × LocalEvent)) :
    called S R (h ++ h') = called S R h ++ called S R h' :=
  List.filterMap_append

theorem calledIds_append (h h' : List (RmpAddress × LocalEvent)) :
    calledIds (h ++ h') = calledIds h ++ calledIds h' :=
  List.filterMap_append

/-- The ids of the calls of one process for another are among those of all calls, in order. -/
theorem called_sublist (S R : RmpAddress) (h : List (RmpAddress × LocalEvent)) :
    ((called S R h).map Outgoing.id).Sublist (calledIds h) := by
  induction h with
  | nil => exact List.Sublist.slnil
  | cons p h ih =>
    obtain ⟨n, e⟩ := p
    cases e with
    | call m =>
      rw [called_call]
      split
      · exact ih.cons_cons m.id
      · exact ih.cons m.id
    | sent => exact ih
    | listened => exact ih

/-- A move calls `RMP_sendTo` at most once, and only a process that is idle does. -/
theorem called_of_move {late faulty : Prop} {v v' : View} {read : Option (RmpAddress × Datagram)}
    {out : Output} {es : List LocalEvent} (h : Move late faulty v read out es v') :
    (∃ m, v.mode = .idle ∧ read = none ∧ v'.slot = v.slot ∧ (∀ x, .call x ∈ es ↔ x = m) ∧
        ∀ n S R, called S R (es.map fun e => (n, e)) = if n = S ∧ m.dest = R then [m] else []) ∨
      ((∀ m, .call m ∉ es) ∧ ∀ n S R, called S R (es.map fun e => (n, e)) = []) := by
  have hresume : ∀ {p : Prop} {limit : ℕ} {a : RmpAddress} {i : MessageId} {mode mode' : Mode}
      {es : List LocalEvent}, Resume p limit a i mode es mode' →
      (∀ m, .call m ∉ es) ∧ ∀ n S R, called S R (es.map fun e => (n, e)) = [] := by
    intro p limit a i mode mode' es hr
    cases hr <;> exact ⟨by simp, fun _ _ _ => rfl⟩
  cases h with
  | @call slot out m hs =>
    exact Or.inl ⟨m, rfl, rfl, rfl, by simp, fun n S R => called_call S R n m _⟩
  | @callFailed slot out m hf hs =>
    exact Or.inl ⟨m, rfl, rfl, rfl, by simp, fun n S R => called_call S R n m _⟩
  | data ht hs hr => exact Or.inr (hresume hr)
  | ack ht hs hr hne => exact Or.inr (hresume hr)
  | stale ht hslot hr => exact Or.inr (hresume hr)
  | other ht hr => exact Or.inr (hresume hr)
  | listen | tidy | resend | giveUp | deaf | acked | deliver | consume =>
    exact Or.inr ⟨by simp, fun _ _ _ => rfl⟩

theorem returned_append (S R : RmpAddress) (h h' : List (RmpAddress × LocalEvent)) :
    returned S R (h ++ h') = returned S R h ++ returned S R h' :=
  List.filterMap_append

theorem returned_sublist_cons (S R : RmpAddress) (p : RmpAddress × LocalEvent)
    (h : List (RmpAddress × LocalEvent)) : (returned S R h).Sublist (returned S R (p :: h)) := by
  have happend : returned S R (p :: h) = returned S R [p] ++ returned S R h := returned_append S R [p] h
  rw [happend]
  exact List.sublist_append_right _ _

/-- A move returns at most one message: that of the slot of the source of the SYN_ACK it reads. -/
theorem returned_of_move {late faulty : Prop} {v v' : View}
    {read : Option (RmpAddress × Datagram)} {out : Output} {es : List LocalEvent}
    (h : Move late faulty v read out es v') :
    (∃ src d bytes len, read = some (src, d) ∧ d.type = .synAck ∧
        v.slot (rmpAddressHash src) = some (d.id, bytes) ∧ v.mode = .listening len ∧
        v' = ⟨.idle, Function.update v.slot (rmpAddressHash src) none⟩ ∧ out = [] ∧
        es = [.listened bytes.length src d.id (bytes.take len) true]) ∨
      ∀ n S R, returned S R (es.map fun e => (n, e)) = [] := by
  have hresume : ∀ {p : Prop} {limit : ℕ} {a : RmpAddress} {i : MessageId} {mode mode' : Mode}
      {es : List LocalEvent}, Resume p limit a i mode es mode' →
      ∀ n S R, returned S R (es.map fun e => (n, e)) = [] := by
    intro p limit a i mode mode' es hr n S R
    cases hr <;> rfl
  cases h with
  | deliver ht hslot =>
    exact Or.inl ⟨_, _, _, _, rfl, ht, hslot, rfl, rfl, rfl, rfl⟩
  | data ht hs hr => exact Or.inr (hresume hr)
  | ack ht hs hr hne => exact Or.inr (hresume hr)
  | stale ht hslot hr => exact Or.inr (hresume hr)
  | other ht hr => exact Or.inr (hresume hr)
  | listen | call | callFailed | tidy | resend | giveUp | deaf | acked | consume =>
    exact Or.inr fun _ _ _ => rfl

@[simp] theorem returned_singleton (n S R src : RmpAddress) (k : ℤ) (id : MessageId)
    (bytes : Bytes) :
    returned S R [(n, .listened k src id bytes true)] =
      if n = R ∧ src = S then [(id, bytes)] else [] := by
  by_cases h : n = R ∧ src = S <;> simp [returned, h]

/-! ## Facts about every run -/

/-- What an action does, for the properties that do not count datagrams: a process moves, or
nothing changes but what is under way; nothing new is under way but what the process sends. -/
theorem udpStep_cases {s s' : Network} {a : Action} (hv : s.Valid) (h : udpStep s a = some s') :
    s'.Valid ∧
      ((∃ n i rest out es, a = .step n i ∧
          s.Moved s' n i rest out es ∧
          (∀ p ∈ rest, p ∈ s.inFlight) ∧
          ∀ src d, i.read = some (src, d) → ⟨src, n, d⟩ ∈ s.inFlight) ∨
        (s'.view = s.view ∧ s'.history = s.history ∧ ∀ p ∈ s'.inFlight, p ∈ s.inFlight)) := by
  cases a with
  | step n i =>
    obtain ⟨rest, out, es, hm, hvalid, hread⟩ := udpStep_moved hv h
    refine ⟨hvalid, Or.inl ⟨n, i, rest, out, es, rfl, hm, ?_⟩⟩
    rcases hread with ⟨hr, rfl⟩ | ⟨src, d, hr, hmem, rfl⟩
    · exact ⟨fun p hp => hp, by simp [hr]⟩
    · refine ⟨fun p hp => List.mem_of_mem_erase hp, fun src' d' hr' => ?_⟩
      obtain ⟨rfl, rfl⟩ := Prod.mk.inj (Option.some.inj (hr.symm.trans hr'))
      exact hmem
  | lose k =>
    obtain rfl := Option.some.inj h
    exact ⟨hv, Or.inr ⟨rfl, rfl, fun p hp => List.mem_of_mem_eraseIdx hp⟩⟩
  | copy k =>
    obtain rfl := Option.some.inj h
    refine ⟨hv, Or.inr ⟨rfl, rfl, fun p hp => ?_⟩⟩
    rcases List.mem_append.1 hp with hp | hp
    · exact hp
    · exact List.mem_of_getElem? (Option.mem_toList.1 hp)

theorem valid_of_reach {ok : Network → Action → Prop} {s : Network}
    (h : Reach udpStep ok Initial s) : s.Valid :=
  h.invariant valid_initial fun _ _ _ hv _ hs => (udpStep_cases hv hs).1

/-- What is under way besides DATA is a bare header, and every positive result of `RMP_listen` is a
message of a receive buffer. -/
structure BareHeaders (s : Network) : Prop where
  valid : s.Valid
  payload : ∀ p ∈ s.inFlight, p.body.type ≠ .data → p.body.payload = []
  delivered : ∀ n k src id bytes del, (n, .listened k src id bytes del) ∈ s.history → 0 < k →
    del = true

theorem bareHeaders_initial {s : Network} (h : s.Initial) : s.BareHeaders :=
  ⟨valid_initial s h, by simp [h.2.1], by simp [h.2.2]⟩

theorem bareHeaders_step {s s' : Network} {a : Action} (hinv : s.BareHeaders)
    (h : udpStep s a = some s') : s'.BareHeaders := by
  obtain ⟨hvalid, ⟨n, i, rest, out, es, -, hm, hrest, hread⟩ | ⟨-, hhist, hin⟩⟩ :=
    udpStep_cases hinv.valid h
  · refine ⟨hvalid, ?_, ?_⟩
    · rw [hm.inFlight]
      intro p hp ht
      rcases List.mem_append.1 hp with hp | hp
      · exact hinv.payload p (hrest p hp) ht
      · obtain ⟨q, hq, rfl⟩ := List.mem_map.1 hp
        exact hm.move.sends_payload hq ht
    · rw [hm.history]
      intro b k src id bytes del hmem hk
      rcases List.mem_append.1 hmem with hmem | hmem
      · exact hinv.delivered b k src id bytes del hmem hk
      · obtain ⟨e, he, heq⟩ := List.mem_map.1 hmem
        obtain ⟨rfl, rfl⟩ := Prod.mk.inj heq
        obtain ⟨len, d, -, hsrc, ht, -, hcases⟩ := hm.move.listened he hk
        rcases hcases with ⟨_, -, -, -, hdel⟩ | ⟨-, hle, -⟩
        · exact hdel
        · -- the SYN_ACK read was a bare header
          have hnil : d.payload = [] := hinv.payload _ (hread _ _ hsrc) (by simp [ht])
          simp only [hnil, List.take_nil, List.length_nil] at hle
          omega
  · exact ⟨hvalid, fun p hp => hinv.payload p (hin p hp), hhist ▸ hinv.delivered⟩

/-- Over any network, whatever is lost or fails, `RMP_listen` returns a positive result only when it
hands out the message of a receive buffer. -/
theorem listened_delivered {ok : Network → Action → Prop} {s : Network}
    (h : Reach udpStep ok Initial s) :
    ∀ n k src id bytes del, (n, .listened k src id bytes del) ∈ s.history → 0 < k → del = true :=
  (h.invariant (fun _ => bareHeaders_initial) fun _ _ _ hI _ => bareHeaders_step hI).delivered

/-- `returned` misses no positive result. -/
theorem results_sublist {ok : Network → Action → Prop} {s : Network} (h : Reach udpStep ok Initial s)
    (S R : RmpAddress) : (results S R s.history).Sublist (returned S R s.history) := by
  have hdel := listened_delivered h
  revert hdel
  induction s.history with
  | nil => exact fun _ => .slnil
  | cons p history ih =>
    intro hdel
    have ih := ih fun n k src id bytes del hmem => hdel n k src id bytes del (.tail _ hmem)
    obtain ⟨n, e⟩ := p
    cases e with
    | call | sent => exact ih
    | listened k src id bytes del =>
      by_cases hpos : 0 < k ∧ n = R ∧ src = S
      · obtain ⟨hk, hat⟩ := hpos
        obtain rfl := hdel n k src id bytes del (.head _) hk
        simpa [results, returned, hk, hat] using ih
      · have hskip :
            results S R ((n, .listened k src id bytes del) :: history) = results S R history := by
          simp [results, hpos]
        exact hskip ▸ ih.trans (returned_sublist_cons ..)

end Network

end Dchat.RMP
