import ScopedStore.Proofs.Account.Calls
import ScopedStore.Proofs.Listener.Recording

/-! Runs of the account store over a client that may answer anything. Each call sends its one
message or none at all and is never repeated, and listeners are told of the accepted writes. -/
namespace ScopedStore.Account

variable {κ : Type}

/-- The same client, writing down the requests that reach it. -/
def Client.watched (client : Client κ) : Client (κ × List Rpc) where
  perform rpc watched :=
    let (outcome, inner) := client.perform rpc watched.1
    (outcome, (inner, watched.2 ++ [rpc]))

/-- What a message or none leaves in the notes of a client. -/
theorem Client.watched_after (client : Client κ) (message : Option Rpc) (watched : κ × List Rpc) :
    (client.watched.after message watched).2 = watched.2 ++ message.toList := by
  cases message with
  | none => exact (List.append_nil _).symm
  | some rpc => rfl

/-- One thing that happens while a store is in use. The client may change its mind by itself. -/
inductive Happening (κ : Type) where
  | call (c : Call)
  | enrol (request : Enrolment)
  | setClock (clock : Clock)
  | drift (change : κ → κ)

/-- A call that was made, its result, and the requests that reached the client meanwhile. -/
structure Exchange where
  call : Call
  result : Except StoreError call.Reply
  requests : List Rpc

abbrev Watching (κ : Type) := Session (State (κ × List Rpc))

namespace Watching

def setClient (session : Watching κ) (client : κ × List Rpc) : Watching κ :=
  { session with store := { session.store with client := client } }

def setClock (session : Watching κ) (clock : Clock) : Watching κ :=
  { session with store := { session.store with clock := clock } }

end Watching

def Happening.occur (outer : Backend (State (κ × List Rpc))) :
    Happening κ → Watching κ → List Exchange × Watching κ
  | call c, session =>
    let (result, session) := (session.setClient (session.store.client.1, [])).call outer c
    ([⟨c, result, session.store.client.2⟩], session)
  | enrol request, session => ([], (session.enrol outer request).2)
  | setClock clock, session => ([], session.setClock clock)
  | drift change, session =>
    ([], session.setClient (change session.store.client.1, session.store.client.2))

def conduct (outer : Backend (State (κ × List Rpc))) :
    List (Happening κ) → Watching κ → List Exchange × Watching κ
  | [], session => ([], session)
  | happening :: rest, session =>
    let (exchanges, session) := happening.occur outer session
    let (later, last) := conduct outer rest session
    (exchanges ++ later, last)

/-- A call sent what it has to and ended in one of its ways. -/
def Exchange.Disciplined (exchange : Exchange) : Prop :=
  exchange.requests = (Remote.message? exchange.call).toList ∧
    Remote.ending exchange.result ∈ Remote.endings exchange.call

/-- What the calls of a run have to tell listeners, in their order. -/
def allAnnounced (noticeScope : Scope) (exchanges : List Exchange) : List Notice :=
  exchanges.flatMap fun exchange => Remote.announced noticeScope exchange.call exchange.result

/-- No listener acts, and this one is registered. -/
structure Attends (id : ListenerId) (session : Watching κ) : Prop where
  records : session.OnlyRecords
  member : id ∈ session.store.hub.members

section Runs
variable (client : Client κ) (noticeScope : Scope) (layers : List Layer) {session : Watching κ}
  {id : ListenerId}

/-- A call through a stack shows to the client, the caller and an attending listener. -/
theorem Attends.call (hid : Attends id session) (c : Call) :
    let outer := Layer.stack layers (Remote.backend client.watched noticeScope)
    let made := session.call outer c
    Attends id made.2 ∧
      made.2.store.client.2 = session.store.client.2 ++ (Remote.message? c).toList ∧
      Remote.ending made.1 ∈ Remote.endings c ∧
      made.2.heardBy id = session.heardBy id ++ Remote.announced noticeScope c made.1 := by
  intro outer made
  obtain ⟨hresult, hnotices, hstate⟩ :=
    Remote.stack_call client.watched noticeScope session.store layers c
  obtain ⟨hending, hannounced, hafter⟩ :=
    Remote.call_outcome client.watched noticeScope session.store c
  have hstored := hstate.trans hafter
  have hmembers : outer.members = fun state => state.hub.members :=
    (Layer.stack_enrol layers (Remote.backend client.watched noticeScope)).2
  rw [← hresult] at hending hannounced
  rw [← hnotices] at hannounced
  have hmade : made = _ := Session.call_recording hid.records c
  have hmember : id ∈ (outer.call c session.store).2.hub.members := by
    rw [hstored]
    exact hid.member
  have hears : ∀ notice ∈ (outer.call c session.store).1.notices, session.hears id notice := by
    rw [hannounced]
    intro notice hnotice
    unfold Remote.announced at hnotice
    split at hnotice
    · rw [List.mem_singleton.mp hnotice]
      trivial
    · cases hnotice
  rw [hmade]
  refine ⟨⟨hid.records, hmember⟩, ?_, hending, ?_⟩
  · rw [hstored]
    exact client.watched_after (Remote.message? c) session.store.client
  · unfold Session.heardBy
    dsimp only
    rw [List.filterMap_append, hmembers,
      Session.reports_toldTo (Hub.nodup _) hmember hears, ← hannounced]

theorem Happening.occur_disciplined (hid : Attends id session) {happening : Happening κ}
    (hstays : happening ≠ .enrol (.unregister id)) :
    let outer := Layer.stack layers (Remote.backend client.watched noticeScope)
    let made := happening.occur outer session
    Attends id made.2 ∧ (∀ exchange ∈ made.1, exchange.Disciplined) ∧
      made.2.heardBy id = session.heardBy id ++ allAnnounced noticeScope made.1 := by
  intro outer made
  cases happening with
  | call c =>
    have hcleared : Attends id (session.setClient (session.store.client.1, [])) :=
      ⟨hid.records, hid.member⟩
    obtain ⟨hlater, hsent, hending, hheard⟩ :=
      Attends.call client noticeScope layers hcleared c
    refine ⟨hlater, fun exchange hmem => ?_, hheard.trans ?_⟩
    · rw [List.mem_singleton.mp hmem]
      exact ⟨hsent, hending⟩
    · unfold allAnnounced
      rw [show made.1 = [_] from rfl, List.flatMap_singleton]
      rfl
  | enrol request =>
    have hother : request ≠ .unregister id := fun he => hstays (he ▸ rfl)
    refine ⟨⟨hid.records, ?_⟩, List.forall_mem_nil _, (List.append_nil _).symm⟩
    change id ∈ (outer.enrol request session.store).2.hub.members
    rw [(Layer.stack_enrol layers (Remote.backend client.watched noticeScope)).1]
    exact Hub.mem_enrol hid.member hother
  | setClock clock =>
    exact ⟨⟨hid.records, hid.member⟩, List.forall_mem_nil _, (List.append_nil _).symm⟩
  | drift change =>
    exact ⟨⟨hid.records, hid.member⟩, List.forall_mem_nil _, (List.append_nil _).symm⟩

theorem conduct_disciplined (hid : Attends id session) {run : List (Happening κ)}
    (hstays : .enrol (.unregister id) ∉ run) :
    let outer := Layer.stack layers (Remote.backend client.watched noticeScope)
    let done := conduct outer run session
    Attends id done.2 ∧ (∀ exchange ∈ done.1, exchange.Disciplined) ∧
      done.2.heardBy id = session.heardBy id ++ allAnnounced noticeScope done.1 := by
  intro outer done
  induction run generalizing session with
  | nil => exact ⟨hid, List.forall_mem_nil _, (List.append_nil _).symm⟩
  | cons happening rest ih =>
    obtain ⟨hfirst, hrest⟩ := not_or.mp (mt List.mem_cons.mpr hstays)
    obtain ⟨hlater, hnow, hheard⟩ :=
      Happening.occur_disciplined client noticeScope layers hid (Ne.symm hfirst)
    obtain ⟨hlast, hthen, hall⟩ := ih hlater hrest
    refine ⟨hlast, fun exchange hmem => ?_, hall.trans ?_⟩
    · exact (List.mem_append.mp hmem).elim (hnow exchange) (hthen exchange)
    · rw [hheard, List.append_assoc]
      unfold allAnnounced
      rw [← List.flatMap_append]
      rfl

variable {client noticeScope layers}

/-- Whatever the client answers and whichever layers are around the store, every call sends the one
message that it has to, or none if it has none, and ends in one of the ways that it may, among which
unavailability is not. A listener that stays registered hears once of each accepted write, under the
scope that the flag selects, and of nothing else. -/
theorem calls_disciplined (client : Client κ) (legacyDeviceScope : Bool) (layers : List Layer)
    (hrecords : session.OnlyRecords) (hmember : id ∈ session.store.hub.members)
    {run : List (Happening κ)} (hstays : .enrol (.unregister id) ∉ run) :
    let told : Scope := if legacyDeviceScope then .device else .account
    let outer := Layer.stack layers
      (Remote.backend client.watched (Remote.noticeScope legacyDeviceScope))
    let done := conduct outer run session
    (∀ exchange ∈ done.1, exchange.requests = (Remote.message? exchange.call).toList ∧
      Remote.ending exchange.result ∈ Remote.endings exchange.call) ∧
    done.2.heardBy id = session.heardBy id ++ done.1.flatMap fun exchange =>
      Remote.announced told exchange.call exchange.result :=
  (conduct_disciplined client (Remote.noticeScope legacyDeviceScope) layers ⟨hrecords, hmember⟩
    hstays).2

/-- A write that the service has no time for is not repeated under two reconnect layers, and is not
announced; the next one is, while a second listener joins. -/
theorem calls_disciplined_unavailable :
    let layers : List Layer := [.reconnect, .cache, .reconnect]
    let session : Watching Prepared :=
      { store := {
          clock := .atSecond 50
          hub := { members := ["watcher"] }
          client := ({ next := some (.error { code := .unavailable }) }, []) } }
    let run : List (Happening Prepared) := [
      .call (.setValue .account "ns" "key" "lost" 5), .enrol (.register "other"),
      .call (.setValue .account "ns" "key" "kept" 5), .call (.getValue .account "ns" "key"),
      .call (.deleteKey .device "ns" "key"), .call .flushCache]
    let outer := Layer.stack layers (Remote.backend Prepared.client.watched
      (Remote.noticeScope true))
    let done := conduct outer run session
    session.OnlyRecords ∧ "watcher" ∈ session.store.hub.members ∧
      .enrol (.unregister "watcher") ∉ run ∧
      done.1.map (fun exchange => (Remote.ending exchange.result, exchange.requests.length)) =
        [("General", 1), ("Ok", 1), ("General", 1), ("General", 0), ("Ok", 0)] ∧
      (∀ exchange ∈ done.1, exchange.requests = (Remote.message? exchange.call).toList) ∧
      done.2.heardBy "watcher" = [.valueChanged .device "ns" "key" "kept"] := by
  intro layers session run outer done
  have hrecords : session.OnlyRecords := fun _ => rfl
  have hmember : "watcher" ∈ session.store.hub.members := by decide
  have hstays : .enrol (.unregister "watcher") ∉ run := by simp [run]
  obtain ⟨hexchanges, hheard⟩ :=
    calls_disciplined Prepared.client true layers hrecords hmember hstays
  refine ⟨hrecords, hmember, hstays, ?_, fun exchange hmem => (hexchanges exchange hmem).1,
    hheard.trans ?_⟩
  · unfold done run
    cbv
  · unfold run
    cbv

end Runs

end ScopedStore.Account
