import Dchat.RMP.Moves
import Dchat.Foundations.Runs

/-!
# Where the messages of `RMP_listen` come from

One process, on any sequence of datagrams. `Attributed` is what a caller of `RMP_listen` takes a
positive result to mean: the source it is given sent the bytes it is given, in an earlier DATA with
the id of the transaction.

The code does not ensure it in two cases (`not_listen_attributed`). A SYN_ACK that completes no
transaction is returned with its own payload, as if it were a message; and the slots are looked up
by a hash that ignores the port, so that a SYN_ACK from one port of a host releases the message
that another port sent. `Genuine` excludes the steps that do either, and `listen_attributed` proves
every return attributed in the runs of the others.
-/

namespace Dchat.RMP

open Runs

/-- A process, the datagrams it has read, and its returns, each with the datagrams read before the
one it processed. -/
structure Listener where
  st : RmpState
  seen : List (RmpAddress × Datagram)
  returns : List (List (RmpAddress × Datagram) × LocalEvent)

namespace Listener

/-- No call yet. -/
def Initial (s : Listener) : Prop :=
  (∃ garbage, s.st = RmpState.initial garbage) ∧ s.seen = [] ∧ s.returns = []

/-- A step of the process, recorded. -/
def step (s : Listener) (i : Input) : Option Listener :=
  (rmpStep s.st i).map fun r =>
    { st := r.state
      seen := s.seen ++ i.read.toList
      returns := s.returns ++ (localEvents i r).map fun e => (s.seen, e) }

/-- A positive result of `RMP_listen`, with `seen` read before, is a prefix of the payload of a
DATA of its source and id. -/
def Attributed (seen : List (RmpAddress × Datagram)) : LocalEvent → Prop
  | .listened n src id bytes _ =>
    0 < n → ∃ p ∈ seen, p.1 = src ∧ p.2.type = .data ∧ p.2.id = id ∧ bytes <+: p.2.payload
  | _ => True

instance (seen : List (RmpAddress × Datagram)) : DecidablePred (Attributed seen)
  | .listened _ _ _ _ _ => inferInstanceAs (Decidable (_ → ∃ p ∈ seen, _ ∧ _ ∧ _ ∧ _))
  | .call _ => inferInstanceAs (Decidable True)
  | .sent _ _ => inferInstanceAs (Decidable True)

/-- The latest DATA from an IP address. -/
def latestData (seen : List (RmpAddress × Datagram)) (ip : BitVec 32) :
    Option (RmpAddress × Datagram) :=
  seen.reverse.find? fun p => p.2.type = .data ∧ p.1.sinAddr = ip

/-- The length of the buffer given to `RMP_listen`. -/
def bufferLength (s : Listener) : Option ℕ :=
  match s.st.mode with
  | .listening len => some len
  | _ => none

/-- The message that a SYN_ACK of a source and an id releases. -/
def released (s : Listener) (src : RmpAddress) (id : MessageId) : Option Bytes :=
  (slots s.st.receiveBuffer (rmpAddressHash src)).bind fun p => if p.1 = id then some p.2 else none

/-- A step is genuine unless `RMP_listen` reads in it a SYN_ACK that releases a (non-empty) message
although the latest DATA of its host came from another port, or one that releases nothing although
it carries bytes. -/
def Genuine (s : Listener) (i : Input) : Prop :=
  ∀ len ∈ s.bufferLength, ∀ p ∈ i.read, p.2.type = .synAck →
    (∀ message ∈ s.released p.1 p.2.id,
      message = [] ∨ (latestData s.seen p.1.sinAddr).map Prod.fst = some p.1) ∧
    (s.released p.1 p.2.id = none → p.2.payload.take len = [])

instance (s : Listener) (i : Input) : Decidable (s.Genuine i) :=
  inferInstanceAs (Decidable (∀ len ∈ s.bufferLength, ∀ p ∈ i.read, p.2.type = .synAck →
    (∀ message ∈ s.released p.1 p.2.id, _ ∨ _) ∧ (_ → _)))

theorem released_eq_some {s : Listener} {src : RmpAddress} {id : MessageId} {message : Bytes} :
    s.released src id = some message ↔
      slots s.st.receiveBuffer (rmpAddressHash src) = some (id, message) := by
  simp only [released, Option.bind_eq_some_iff, Prod.exists]
  constructor
  · rintro ⟨id', m, hs, h⟩
    split at h
    · next hid =>
      obtain rfl := Option.some.inj h
      exact hid ▸ hs
    · cases h
  · intro hs
    exact ⟨id, message, hs, if_pos rfl⟩

theorem latestData_append_data (seen : List (RmpAddress × Datagram)) (src : RmpAddress)
    {d : Datagram} (ht : d.type = .data) (ip : BitVec 32) :
    latestData (seen ++ [(src, d)]) ip =
      if src.sinAddr = ip then some (src, d) else latestData seen ip := by
  simp only [latestData, List.reverse_append, List.reverse_singleton, List.singleton_append,
    List.find?_cons, ht, true_and]
  by_cases h : src.sinAddr = ip <;> simp [h]

theorem latestData_append_other (seen : List (RmpAddress × Datagram))
    {read : Option (RmpAddress × Datagram)}
    (h : ∀ src d, read = some (src, d) → d.type ≠ .data) (ip : BitVec 32) :
    latestData (seen ++ read.toList) ip = latestData seen ip := by
  rcases read with _ | ⟨src, d⟩
  · simp
  · have hd := h src d rfl
    simp [latestData, hd]

theorem mem_of_latestData {seen : List (RmpAddress × Datagram)} {ip : BitVec 32}
    {p : RmpAddress × Datagram} (h : latestData seen ip = some p) :
    p ∈ seen ∧ p.2.type = .data := by
  have hp := List.find?_some h
  simp only [decide_eq_true_eq] at hp
  exact ⟨List.mem_reverse.1 (List.mem_of_find?_eq_some h), hp.1⟩

/-- What holds after any genuine run: a slot holds (a prefix of) the latest DATA of its host, and
every return is attributed. -/
structure Inv (s : Listener) : Prop where
  valid : s.st.Valid
  slot : ∀ (src : RmpAddress) id message,
    s.st.view.slot (rmpAddressHash src) = some (id, message) →
      ∃ a d, latestData s.seen src.sinAddr = some (a, d) ∧ d.id = id ∧ message <+: d.payload
  returns : ∀ p ∈ s.returns, Attributed p.1 p.2

theorem inv_initial {s : Listener} (h : s.Initial) : s.Inv := by
  obtain ⟨⟨garbage, hst⟩, hseen, hret⟩ := h
  refine ⟨hst ▸ RmpState.valid_initial garbage, ?_, by simp [hret]⟩
  intro src id message hslot
  rw [hst] at hslot
  cases hslot

/-- A move keeps the slots in step with the datagrams read. -/
theorem slot_of_move {late faulty : Prop} {v v' : View} {seen : List (RmpAddress × Datagram)}
    {read : Option (RmpAddress × Datagram)} {out : Output} {es : List LocalEvent}
    (hm : Move late faulty v read out es v')
    (hslot : ∀ (src : RmpAddress) id message,
      v.slot (rmpAddressHash src) = some (id, message) →
        ∃ a d, latestData seen src.sinAddr = some (a, d) ∧ d.id = id ∧ message <+: d.payload)
    (src : RmpAddress) (id : MessageId) (message : Bytes)
    (h : v'.slot (rmpAddressHash src) = some (id, message)) :
    ∃ a d, latestData (seen ++ read.toList) src.sinAddr = some (a, d) ∧ d.id = id ∧
      message <+: d.payload := by
  rcases hm.slot_cases with ⟨a, d, rfl, ht, hs⟩ | ⟨hne, hs⟩
  · have hlatest := latestData_append_data seen a ht src.sinAddr
    rw [hs] at h
    by_cases hk : rmpAddressHash src = rmpAddressHash a
    · rw [hk, Function.update_self] at h
      obtain ⟨rfl, rfl⟩ := Prod.mk.inj (Option.some.inj h)
      rw [if_pos (rmpAddressHash_inj.1 hk).symm] at hlatest
      exact ⟨a, d, hlatest, rfl, List.take_prefix _ _⟩
    · rw [Function.update_of_ne hk] at h
      rw [if_neg fun he => hk (rmpAddressHash_inj.2 he.symm)] at hlatest
      obtain ⟨b, e, hb, hid, hpre⟩ := hslot src id message h
      exact ⟨b, e, hlatest.trans hb, hid, hpre⟩
  · obtain ⟨b, e, hb, hid, hpre⟩ := hslot src id message (hs _ _ h)
    exact ⟨b, e, (latestData_append_other seen hne _).trans hb, hid, hpre⟩

/-- A genuine step makes only attributed returns. -/
theorem attributed_of_move {s : Listener} {i : Input} {late faulty : Prop} {out : Output}
    {es : List LocalEvent} {v' : View} (hinv : s.Inv) (hg : s.Genuine i)
    (hm : Move late faulty s.st.view i.read out es v') : ∀ e ∈ es, Attributed s.seen e := by
  intro e he
  cases e with
  | call | sent => trivial
  | listened n src id bytes delivered =>
    intro hn
    obtain ⟨len, ⟨t, id', payload⟩, hmode, hread, rfl, rfl, hcases⟩ := hm.listened he hn
    have hlen : len ∈ s.bufferLength := by
      have hmode' : s.st.mode = .listening len := hmode
      simp [bufferLength, hmode']
    obtain ⟨hrel, hstray⟩ := hg len hlen _ hread rfl
    rcases hcases with ⟨m, hslot, rfl, rfl, -⟩ | ⟨hslot, hle, -⟩
    · have hne : m ≠ [] := by
        rintro rfl
        simp at hn
      obtain ⟨a, d, hd, hid, hpre⟩ := hinv.slot src id' m hslot
      have hsrc := (hrel m (released_eq_some.2 hslot)).resolve_left hne
      rw [hd] at hsrc
      obtain rfl : a = src := Option.some.inj hsrc
      obtain ⟨hmem, ht⟩ := mem_of_latestData hd
      exact ⟨_, hmem, rfl, ht, hid, (List.take_prefix _ _).trans hpre⟩
    · -- the payload of a stray SYN_ACK is what a genuine step does not read
      have hnone : s.released src id' = none :=
        Option.eq_none_iff_forall_ne_some.2 fun m h => hslot m (released_eq_some.1 h)
      have hnil := hstray hnone
      simp only at hnil
      rw [hnil, List.length_nil] at hle
      omega

theorem inv_step {s s' : Listener} {i : Input} (hinv : s.Inv) (hg : s.Genuine i)
    (h : s.step i = some s') : s'.Inv := by
  obtain ⟨r, hr, rfl⟩ := Option.map_eq_some_iff.1 h
  obtain ⟨hm, hvalid⟩ := rmpStep_move hinv.valid hr
  refine ⟨hvalid, slot_of_move hm hinv.slot, ?_⟩
  intro p hp
  rcases List.mem_append.1 hp with hp | hp
  · exact hinv.returns p hp
  · obtain ⟨e, he, rfl⟩ := List.mem_map.1 hp
    exact attributed_of_move hinv hg hm e he

/-- **Integrity and attribution of `RMP_listen`**, in every run of genuine steps. -/
theorem listen_attributed {s : Listener} (h : Reach step Genuine Initial s) :
    ∀ p ∈ s.returns, Attributed p.1 p.2 :=
  (h.invariant (fun _ => inv_initial) fun _ _ _ => inv_step).returns

/-- A process that has not been called. -/
def start : Listener := ⟨RmpState.initial (blankBuffer ⟨0, 0⟩), [], []⟩

/-- A DATA and its SYN_ACK. -/
def honestRun : List Input :=
  [.listen 8, .receive ⟨1, 1⟩ .data 7 [104, 105], .listen 8, .receive ⟨1, 1⟩ .synAck 7 []]

theorem listen_attributed_honestRun :
    ∃ s : Listener, s.returns.map Prod.snd =
        [.listened 0 ⟨1, 1⟩ 7 [] false, .listened 2 ⟨1, 1⟩ 7 [104, 105] true] ∧
      ∀ p ∈ s.returns, Attributed p.1 p.2 := by
  obtain ⟨s, hs, hret⟩ := Option.map_eq_some_iff.1
    (show (exec step Genuine start honestRun).map (fun s => s.returns.map Prod.snd) =
      some [.listened 0 ⟨1, 1⟩ 7 [] false, .listened 2 ⟨1, 1⟩ 7 [104, 105] true] by decide)
  exact ⟨s, hret, listen_attributed (reach_exec _ (.start ⟨⟨_, rfl⟩, rfl, rfl⟩) hs)⟩

/-- A SYN_ACK that nothing preceded, with two bytes after its header. -/
def strayRun : List Input := [.listen 8, .receive ⟨1, 1⟩ .synAck 7 [104, 105]]

/-- Without the restriction the property fails: the bytes of `strayRun` are returned as a message
of a source that has sent no DATA. -/
theorem not_listen_attributed :
    ¬ ∀ s, Reach step (fun _ _ => True) Initial s → ∀ p ∈ s.returns, Attributed p.1 p.2 := by
  intro h
  obtain ⟨s, hs, hret⟩ := Option.map_eq_some_iff.1
    (show (exec step (fun _ _ => True) start strayRun).map Listener.returns =
      some [([], .listened 2 ⟨1, 1⟩ 7 [104, 105] false)] by decide)
  have hs := h s (reach_exec _ (.start ⟨⟨_, rfl⟩, rfl, rfl⟩) hs)
  rw [hret] at hs
  revert hs
  decide

/-- It fails without stray bytes too, when two ports of a host send at the same time: the message of
port 1 is returned as that of port 2. -/
example : (exec step (fun _ _ => True) start
    [.listen 8, .receive ⟨1, 1⟩ .data 7 [104, 105], .listen 8, .receive ⟨1, 2⟩ .synAck 7 []]).all
      (fun s => decide (∀ p ∈ s.returns, Attributed p.1 p.2)) = false := by
  decide

end Listener

end Dchat.RMP
