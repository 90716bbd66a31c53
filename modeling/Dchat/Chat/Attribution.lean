import Dchat.Chat.Deployment

/-!
# Messages under another address

A receive buffer is found by the IP address alone, and `RMP_listen` hands its message out when a
SYN_ACK with its id comes from that IP address, under the address of the SYN_ACK. `random` is never
seeded: all processes draw the same ids in the same order. Two processes of one host that send their
first message to the same process get in each other's way: the SYN_ACK of the first one hands the
message of the second one out, as a message of the first one.

The list of a chat is kept by addresses, and does not stand this.

* `membership_of_deployment`: as long as every message is handed over under the address of its
  sender, every process has counted its list, and the nicknames in it are distinct. Between hosts
  with distinct IP addresses that draw distinct ids it always is (`attributed_of_regular`).
* `not_membership_of_deployment`: an ADD_ME of `d` is handed over under the address of `b`, on the
  same host, which then takes over a list without itself. It declares victory, no entry is that of
  the leader, and the old leader is announced twice.
-/

namespace Dchat.Chat

open CString Stdio RMP RMP.Network Links Runs

/-- **Every process has counted its list, and the nicknames in it are distinct**, over RMP over UDP,
in every run in which messages are handed over under the addresses of their senders. -/
theorem membership_of_deployment {resolve : Bytes → Bytes → Option RmpAddress} {founder : Member}
    (hfounder : Admitted founder.nickname)
    (hresolve : resolve (inetNtoa founder.address) (portText founder.address) = some founder.address)
    {d : Deployment} (hd : Reach (deploymentStep resolve) (fun d action =>
        (Deployment.Spelled action ∧ Deployment.Attributed d action) ∧
          Deployment.Decent resolve Set.univ action) (Deployment.Founded founder) d)
    (a : RmpAddress) (h : Host) (hh : d.hosts a = some h) :
    h.process.node.numParticipants = h.process.node.participants.length ∧
      (h.process.node.participants.map fun p => p.nickname).Nodup := by
  have hmeets : ∀ action, Deployment.Decent resolve Set.univ action →
      Deployment.Meets (fun action => ∀ g, Admissible resolve g action) action := by
    intro action hdecent
    cases action with
    | join => exact fun _ => hdecent
    | react => exact fun _ _ _ => trivial
    | library | crash | lose | copy => trivial
  obtain ⟨g, hg, hR⟩ := exists_session hfounder.no_nul
    ⟨fun _ _ => trivial, fun _ _ => trivial, fun _ _ _ _ _ => trivial⟩
    (hd.mono fun _ action _ hok hs => ⟨⟨hok.1, hmeets action hok.2⟩, hs⟩)
  have hlive : g.procs a = some h.process := by
    rw [hR.procs, hh]
    rfl
  exact membership hfounder hresolve (hg.mono fun g _ _ hok hs => ⟨hok.2 g, hs⟩) a _ hlive

/-- `b` is let in, under its own address. -/
theorem membership_of_deployment_entrance : ∃ (d : Deployment) (h : Host),
    d.hosts ⟨0x0200007F#32, 80#16⟩ = some h ∧
    (h.process.node.participants.map fun p => p.nickname) = [str "a", str "b"] ∧
    h.process.node.numParticipants = h.process.node.participants.length ∧
    (h.process.node.participants.map fun p => p.nickname).Nodup := by
  let _ : DecidablePred (· ∈ (Set.univ : Set RmpAddress)) := fun _ => .isTrue trivial
  have hrun : (launch.bind fun d => exec (deploymentStep loopbackNetwork) (fun d action =>
      (Deployment.Spelled action ∧ Deployment.Attributed d action) ∧
        Deployment.Decent loopbackNetwork Set.univ action) d entrance).map (fun d =>
          (d.hosts ⟨0x0200007F#32, 80#16⟩).map fun h =>
            h.process.node.participants.map fun p => p.nickname) =
      some (some [str "a", str "b"]) := by
    decide
  obtain ⟨d, hd, hlist⟩ := exists_deployment_of_exec hrun
  obtain ⟨h, hh, hlist⟩ := Option.map_eq_some_iff.1 hlist
  exact ⟨d, h, hh, hlist,
    membership_of_deployment ⟨by decide, by decide, by decide⟩ (by decide) hd _ h hh⟩

/-! ## Two processes of one host -/

/-- The results of `random`, from the first one on. -/
def unseeded : List MessageId :=
  [1804289383, 846930886, 1681692777, 1714636915, 1957747793, 424238335, 719885386, 1649760492,
    596516649, 1189641421]

/-- The id of a call of `RMP_sendTo`, by how many the process made before. -/
def nthId (n : ℕ) : MessageId := unseeded.getD n 0

/-- `c` is let in by `a`. -/
def arrival : List Happening :=
  .asks thirdHost "c" :: carried thirdHost (localHost 80) (nthId 0) (str "ADD_ME c") ++
    carried (localHost 80) thirdHost (nthId 0)
      (str "PARTICIPANT_UPDATE @a:127.0.0.1:80 c:127.0.0.3:80 = NOTICE c joined on 127.0.0.3:80")

/-- `b` and `d` of the second host ask `a`, and draw the same id. The ADD_ME of `d` takes the place
of that of `b`, and the SYN_ACK of `b` hands it out. -/
def collision : List Happening :=
  [.asks (secondHost 81) "b", .asks (secondHost 82) "d",
    .library (secondHost 81) (.sendTo (localHost 80) (str "ADD_ME b" ++ [0]) (nthId 0)) .fair,
    .library (secondHost 82) (.sendTo (localHost 80) (str "ADD_ME d" ++ [0]) (nthId 0)) .fair,
    .library (localHost 80) (.listen maxBufferLen) .fair,
    .library (localHost 80) (.receive (secondHost 81) .data (nthId 0) (str "ADD_ME b" ++ [0])) .fair,
    .library (localHost 80) (.listen maxBufferLen) .fair,
    .library (localHost 80) (.receive (secondHost 82) .data (nthId 0) (str "ADD_ME d" ++ [0])) .fair,
    .library (secondHost 81) .wait .fair,
    .library (secondHost 81) (.receive (localHost 80) .ack (nthId 0) []) .fair] ++
    collected (secondHost 81) (localHost 80) (nthId 0)

/-- `a` announces `d` at the address of `b`, to `c` and to `b`. -/
def misattribution : List Happening :=
  carried (localHost 80) thirdHost (nthId 1) notice ++
    carried (localHost 80) (secondHost 81) (nthId 2) notice
where
  notice : Bytes := str
    "PARTICIPANT_UPDATE @a:127.0.0.1:80 c:127.0.0.3:80 d:127.0.0.2:81 = NOTICE d joined on 127.0.0.2:81"

/-- A heartbeat of `b` times out, and so do the START_ELECTIONs that it sends to all entries of its
list, none of which is its own. -/
def uprising : List Happening :=
  .react (secondHost 81) .heartbeat ⟨fun _ _ _ => rmpETimeout, .blank, []⟩ ::
    givenUp (secondHost 81) (localHost 80) (nthId 1) messageHeartbeat ++
    givenUp (secondHost 81) (localHost 80) (nthId 2) messageStartElection ++
    givenUp (secondHost 81) thirdHost (nthId 3) messageStartElection ++
    givenUp (secondHost 81) (secondHost 81) (nthId 4) messageStartElection

/-- `b` declares victory. It takes out `d`, which does not answer, and announces the list, with `a`
for the leader and `a` among the others. -/
def seizure : List Happening :=
  .react (secondHost 81) .victory (.deafTo (secondHost 81)) ::
    deposited (secondHost 81) (localHost 80) (nthId 5) messageElectionVictory ++
    deposited (secondHost 81) thirdHost (nthId 6) messageElectionVictory ++
    givenUp (secondHost 81) (secondHost 81) (nthId 7) messageElectionVictory ++
    deposited (secondHost 81) (localHost 80) (nthId 8) notice ++
    carried (secondHost 81) thirdHost (nthId 9) notice
where
  notice : Bytes := str
    "PARTICIPANT_UPDATE @a:127.0.0.1:80 a:127.0.0.1:80 c:127.0.0.3:80 = NOTICE d left the chat or crashed"

/-- `a` is twice on the list of `c`. -/
theorem not_membership_of_deployment : ¬ ∀ (resolve : Bytes → Bytes → Option RmpAddress)
    (founder : Member), Admitted founder.nickname →
    resolve (inetNtoa founder.address) (portText founder.address) = some founder.address →
    ∀ d, Reach (deploymentStep resolve) (fun _ action =>
        Deployment.Spelled action ∧ Deployment.Decent resolve Set.univ action)
      (Deployment.Founded founder) d →
    ∀ a h, d.hosts a = some h →
      h.process.node.numParticipants = h.process.node.participants.length ∧
        (h.process.node.participants.map fun p => p.nickname).Nodup := by
  intro hall
  let _ : DecidablePred (· ∈ (Set.univ : Set RmpAddress)) := fun _ => .isTrue trivial
  have hrun : (launch.bind fun d => exec (deploymentStep loopbackNetwork) (fun _ action =>
      Deployment.Spelled action ∧ Deployment.Decent loopbackNetwork Set.univ action) d
      (arrival ++ collision ++ misattribution ++ uprising ++ seizure)).map (fun d =>
        (d.hosts thirdHost).map fun h => h.process.node.participants.map fun p => p.nickname) =
      some (some [str "a", str "a", str "c"]) := by
    decide +kernel
  obtain ⟨d, hd, hlist⟩ := exists_deployment_of_exec hrun
  obtain ⟨h, hh, hlist⟩ := Option.map_eq_some_iff.1 hlist
  have hnodup := (hall loopbackNetwork host ⟨by decide, by decide, by decide⟩ (by decide) d hd _ h hh).2
  rw [hlist] at hnodup
  exact absurd hnodup (by decide)

end Dchat.Chat
