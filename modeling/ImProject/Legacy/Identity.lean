-- SUMMARY: The packets of the legacy server act for the user they name, whoever sent them.
import ImProject.Legacy.Machine

/-!
# Who a packet acts for

The handlers of chat, reply and offline packets take the acting user from the
packet. They never ask which user logged in on the connection; only the end of a
connection is traced back to its user through the map.
-/

open Library

namespace Kernel

/-- The user a packet names as the one that acts. -/
def Packet.actor? : Packet → Option UserId
  | .chatInfoRq rq => some rq.myid
  | .addFriendRs rs => some rs.myid
  | .friendOffline offlineid => some offlineid
  | _ => none

/-- The user a frame is about to its receiver. -/
def Frame.sender? : Frame → Option UserId
  | .chatInfoRq rq => some rq.myid
  | .addFriendRs rs => some rs.myid
  | .friendOffline offlineid => some offlineid
  | _ => none

/-- What is done in the name of a user: messages, friendships, and going offline. -/
def Effect.isActing : Effect → Bool
  | .sent frame _ => frame.sender?.isSome
  | .loggedIn _ => false
  | .storedOffline .. | .insertedFriend .. | .erased .. | .closed _ => true

namespace State

/-- The user logged in on the connection. -/
def LoggedIn (s : State) (conn : Nat) (u : UserId) : Prop :=
  ∃ thread packet, (thread, .packet conn packet, .loggedIn u) ∈ s.log

/-- An effect of a thread concerns the user. The connection it closes is the one it
has taken out of the map for the user. -/
def Concerns (s : State) (thread : Nat) (cause : Cause) (u : UserId) : Effect → Prop
  | .loggedIn id => id = u
  | .sent frame _ => ∀ id, frame.sender? = some id → id = u
  | .storedOffline senderId _ _ => senderId = u
  | .insertedFriend idA idB => idA = u ∨ idB = u
  | .erased id _ => id = u
  | .closed sock => (thread, cause, .erased u sock) ∈ s.log

/-- Chat, reply and offline packets act for users that logged in on their connections. -/
def OwnOnly (s : State) : Prop :=
  ∀ thread conn packet effect, packet.actor?.isSome → effect.isActing →
    (thread, .packet conn packet, effect) ∈ s.log →
      ∃ u, s.LoggedIn conn u ∧ s.Concerns thread (.packet conn packet) u effect

end State

/-! ## The operations of a packet -/

/-- The operations that act for the user, after sockets have been taken out of the map. -/
def ActsFor (u : UserId) (socks : List NetEndpoint) : Op → Prop
  | .setSocket .. | .eraseUser _ => False
  | .eraseSocket id => id = u
  | .insertFriend idA idB => idA = u ∨ idB = u
  | .insertOffline senderId _ _ => senderId = u
  | .sendData frame _ => ∀ id, frame.sender? = some id → id = u
  | .closeConnection sock => sock ∈ socks
  | _ => True

/-- The sockets taken out of the map. -/
def noteErased (socks : List NetEndpoint) : (o : Op) → o.Ans → List NetEndpoint
  | .eraseSocket _, some sock => sock :: socks
  | _, _ => socks

/-- A packet that names an acting user is handled for this user only. -/
def contract : Option UserId → Contract (List NetEndpoint) Op.Ans
  | some u => { Allowed := ActsFor u, next := noteErased }
  | none => { Allowed := fun _ _ => True, next := noteErased }

/-- The handler acts for the user only. -/
abbrev Handler.For {β : Type} (handler : Handler β) (u : UserId) (socks : List NetEndpoint) : Prop :=
  handler.Meets (contract (some u)) socks

section

variable {u : UserId} (socks : List NetEndpoint)

theorem for_sendPacket {frame : Frame} (h : ∀ id, frame.sender? = some id → id = u)
    (sock : NetEndpoint) : (sendPacket frame sock).For u socks :=
  ⟨h, fun _ _ => trivial⟩

theorem for_sendToUser (id : UserId) {frame : Frame} (h : ∀ id, frame.sender? = some id → id = u) :
    (sendToUser id frame).For u socks := by
  refine ⟨trivial, fun a _ => ?_⟩
  cases a with
  | none => trivial
  | some sock => exact for_sendPacket _ h sock

theorem for_sendToFriends {frame : Frame} (h : ∀ id, frame.sender? = some id → id = u)
    (ids : List UserId) : (sendToFriends frame ids).For u socks := by
  induction ids generalizing socks with
  | nil => trivial
  | cons id ids ih => exact (for_sendToUser socks id h).bind fun socks _ => ih socks

theorem for_notifyFriendsOffline : (notifyFriendsOffline u).For u socks := by
  refine ⟨trivial, fun a _ => ?_⟩
  cases a with
  | none => trivial
  | some friends => exact for_sendToFriends _ (by simp [Frame.sender?]) friends

theorem for_getInfoById (id : UserId) : (getInfoById id).For u socks := by
  refine ⟨trivial, fun online _ => ⟨trivial, fun a _ => ?_⟩⟩
  rcases a with _ | _ | ⟨user, _ | _⟩ <;> trivial

theorem for_sendFriendInfos (id : UserId) (myInfo : FriendInfo) (ids : List UserId) :
    (sendFriendInfos id myInfo ids).For u socks := by
  induction ids generalizing socks with
  | nil => trivial
  | cons friendid ids ih =>
    refine (for_getInfoById socks friendid).bind fun socks friendInfo => ?_
    refine (for_sendToUser socks id (by simp [Frame.sender?])).bind fun socks _ => ?_
    exact (for_sendToUser socks friendid (by simp [Frame.sender?])).bind fun socks _ => ih socks

theorem for_getUserInfoAndFriendInfo (id : UserId) :
    (getUserInfoAndFriendInfo id).For u socks := by
  refine (for_getInfoById socks id).bind fun socks myInfo => ?_
  refine (for_sendToUser socks id (by simp [Frame.sender?])).bind fun socks _ => ?_
  refine ⟨trivial, fun a _ => ?_⟩
  cases a with
  | none => trivial
  | some friends => exact for_sendFriendInfos _ id myInfo friends

theorem for_dealOfflineRq : (dealOfflineRq u).For u socks := by
  refine (for_notifyFriendsOffline socks).bind fun socks _ => ⟨rfl, fun a _ => ?_⟩
  cases a with
  | none => trivial
  | some offSock =>
    refine ⟨trivial, fun _ _ => ?_⟩
    dsimp only
    split
    · exact ⟨List.mem_cons_self .., fun _ _ => trivial⟩
    · trivial

theorem for_dealChatRq (rq : ChatInfoRq) (source : NetEndpoint) :
    (dealChatRq rq source).For rq.myid socks := by
  refine ⟨trivial, fun a _ => ?_⟩
  cases a with
  | none => exact ⟨rfl, fun _ _ => for_sendPacket _ (by simp [Frame.sender?]) source⟩
  | some friSock => exact for_sendPacket _ (by simp [Frame.sender?]) friSock

theorem for_dealAddFriendRs (rs : AddFriendRs) : (dealAddFriendRs rs).For rs.myid socks := by
  have hforward (socks : List NetEndpoint) :
      (sendToUser rs.destid (.addFriendRs rs)).For rs.myid socks :=
    for_sendToUser socks rs.destid (by simp [Frame.sender?])
  unfold dealAddFriendRs
  split
  · refine ⟨.inr rfl, fun inserted _ => ?_⟩
    cases inserted with
    | false => trivial
    | true =>
      refine ⟨.inl rfl, fun inserted _ => ?_⟩
      cases inserted with
      | false => trivial
      | true => exact (for_getUserInfoAndFriendInfo _ rs.destid).bind fun socks _ => hforward socks
  · exact hforward socks

/-- A packet is handled for the user it names. -/
theorem for_dealData (sha256Hex : String → String) {packet : Packet} (h : packet.actor? = some u)
    (source : NetEndpoint) : (dealData sha256Hex packet source).For u socks := by
  refine ⟨trivial, fun _ _ => ?_⟩
  cases packet with
  | chatInfoRq rq =>
    cases h
    exact for_dealChatRq _ rq source
  | addFriendRs rs =>
    cases h
    exact for_dealAddFriendRs _ rs
  | friendOffline offlineid =>
    cases h
    exact for_dealOfflineRq _
  | _ => cases h

end

/-! ## The machine -/

/-- The effect an operation may have. -/
inductive Logs : Op → Effect → Prop where
  | setSocket {id : UserId} {sock : NetEndpoint} : Logs (.setSocket id sock) (.loggedIn id)
  | eraseSocket {id : UserId} {sock : NetEndpoint} : Logs (.eraseSocket id) (.erased id sock)
  | eraseUser {id : UserId} {sock : NetEndpoint} : Logs (.eraseUser sock) (.erased id sock)
  | insertFriend {idA idB : UserId} : Logs (.insertFriend idA idB) (.insertedFriend idA idB)
  | insertOffline {senderId receiverId : UserId} {content : String} :
      Logs (.insertOffline senderId receiverId content) (.storedOffline senderId receiverId content)
  | sendData {frame : Frame} {sock : NetEndpoint} : Logs (.sendData frame sock) (.sent frame sock)
  | closeConnection {sock : NetEndpoint} : Logs (.closeConnection sock) (.closed sock)

section

variable (s : State) (thread : Nat) (cause : Cause)

theorem log_collectStale (now : Int) : (s.collectStale now).1.log = s.log := by
  unfold State.collectStale
  generalize s.sockets = entries
  dsimp only
  induction entries generalizing s with
  | nil => rfl
  | cons entry entries ih =>
    rw [List.foldl_cons, ih]
    split <;> rfl

theorem log_statement {c : Choice} {result : Option Tables} {s' : State}
    (h : statement s c result = some s') : s'.log = s.log := by
  unfold statement at h
  split at h
  · cases h
  · obtain ⟨tables, -, rfl⟩ := Option.map_eq_some_iff.mp h
    rfl

/-- An operation logs nothing, or the effect it may have. -/
theorem perform_log (o : Op) (c : Choice) :
    (perform s thread cause o c).1.log = s.log ∨
      ∃ effect, Logs o effect ∧
        (perform s thread cause o c).1.log = s.log ++ [(thread, cause, effect)] := by
  cases o with
  | setSocket id sock => exact .inr ⟨_, .setSocket, rfl⟩
  | eraseSocket id =>
    simp only [perform]
    split
    · exact .inr ⟨_, .eraseSocket, rfl⟩
    · exact .inl rfl
  | eraseUser sock =>
    simp only [perform]
    split
    · exact .inr ⟨_, .eraseUser, rfl⟩
    · exact .inl rfl
  | collectStale => exact .inl (log_collectStale s c.now)
  | insertUser name tel passwd salt =>
    simp only [perform]
    split
    · rename_i hstatement
      exact .inl (log_statement s hstatement)
    · exact .inl rfl
  | insertFriend idA idB =>
    simp only [perform]
    split
    · rename_i hstatement
      refine .inr ⟨_, .insertFriend, ?_⟩
      rw [State.note, log_statement s hstatement]
    · exact .inl rfl
  | insertOffline senderId receiverId content =>
    simp only [perform]
    split
    · rename_i hstatement
      refine .inr ⟨_, .insertOffline, ?_⟩
      rw [State.note, log_statement s hstatement]
    · exact .inl rfl
  | updateDelivered id =>
    simp only [perform]
    split <;> exact .inl rfl
  | sendData frame sock => exact .inr ⟨_, .sendData, rfl⟩
  | closeConnection sock =>
    simp only [perform]
    split
    · exact .inr ⟨_, .closeConnection, rfl⟩
    · exact .inl rfl
  | _ => exact .inl rfl

/-- The connections a thread has taken out of the map are logged. -/
theorem erased_logged {o : Op} {c : Choice} {u : UserId} {socks : List NetEndpoint}
    (ho : ActsFor u socks o) (hsocks : ∀ sock ∈ socks, (thread, cause, .erased u sock) ∈ s.log) :
    ∀ sock ∈ noteErased socks o (perform s thread cause o c).2,
      (thread, cause, .erased u sock) ∈ (perform s thread cause o c).1.log := by
  have hkept {sock : NetEndpoint} (h : sock ∈ socks) :
      (thread, cause, .erased u sock) ∈ (perform s thread cause o c).1.log := by
    rcases perform_log s thread cause o c with heq | ⟨effect, -, heq⟩
    · rw [heq]
      exact hsocks sock h
    · rw [heq]
      exact List.mem_append_left _ (hsocks sock h)
  intro sock hsock
  cases o with
  | eraseSocket id =>
    cases ho
    cases hget : s.getSocket u with
    | none =>
      simp only [perform, hget, noteErased] at hsock
      exact hkept hsock
    | some old =>
      simp only [perform, hget, noteErased, List.mem_cons] at hsock
      rcases hsock with rfl | hsock
      · simp [perform, hget, State.note]
      · exact hkept hsock
  | _ => exact hkept hsock

end

/-- What an operation that acts for the user has for an effect concerns the user. -/
theorem ActsFor.concerns {s : State} {thread : Nat} {cause : Cause} {u : UserId}
    {socks : List NetEndpoint} {o : Op} {effect : Effect} (ho : ActsFor u socks o)
    (heffect : Logs o effect)
    (hsocks : ∀ sock ∈ socks, (thread, cause, .erased u sock) ∈ s.log) :
    s.Concerns thread cause u effect := by
  cases heffect with
  | setSocket => exact absurd ho id
  | eraseUser => exact absurd ho id
  | closeConnection => exact hsocks _ ho
  | _ => exact ho

/-- The log only grows, and what concerns a user goes on to do so. -/
theorem State.Concerns.mono {s s' : State} {thread : Nat} {cause : Cause} {u : UserId}
    {effect : Effect} (h : s.Concerns thread cause u effect) (hlog : ∀ e ∈ s.log, e ∈ s'.log) :
    s'.Concerns thread cause u effect := by
  cases effect with
  | closed sock => exact hlog _ h
  | _ => exact h

/-- The user a cause makes the server act for. -/
def Cause.actor? : Cause → Option UserId
  | .packet _ p => p.actor?
  | _ => none

/-- What a thread has noted is logged. -/
def Noted (s : State) (thread : Nat) (cause : Cause) (socks : List NetEndpoint) : Prop :=
  ∀ u, cause.actor? = some u → ∀ sock ∈ socks, (thread, cause, .erased u sock) ∈ s.log

/-- What has been done for packets concerns the users they name. -/
def Attributed (s : State) : Prop :=
  ∀ thread cause u effect, cause.actor? = some u → (thread, cause, effect) ∈ s.log →
    s.Concerns thread cause u effect

/-- Every program that is started acts for the user of its cause. -/
theorem meets_start {sha256Hex : String → String} {s s' : State} {arrival : Arrival}
    {new : List (Cause × Handler Unit)} (h : start sha256Hex s arrival = some (s', new)) :
    s'.log = s.log ∧ ∀ e ∈ new, e.2.Meets (contract e.1.actor?) [] := by
  have hfree (p : Handler Unit) : p.Meets (contract none) [] := .of_allowed (fun _ _ => trivial) p _
  unfold start at h
  split at h
  · split at h <;> cases h
    exact ⟨rfl, by simp⟩
  · rename_i conn packet
    split at h
    · rename_i sock _
      split at h <;> cases h
      refine ⟨rfl, fun e he => ?_⟩
      cases List.mem_singleton.mp he
      change (task _ _).Meets (contract packet.actor?) []
      cases hactor : packet.actor? with
      | none => exact hfree _
      | some u =>
        exact (for_dealData [] sha256Hex hactor sock).bind fun _ _ => ⟨trivial, fun _ _ => trivial⟩
    · cases h
  · split at h
    · split at h <;> cases h
      refine ⟨rfl, fun e he => ?_⟩
      cases List.mem_singleton.mp he
      exact hfree _
    · cases h
  · split at h <;> cases h
    refine ⟨rfl, fun e he => ?_⟩
    cases List.mem_singleton.mp he
    exact hfree _

theorem attributed {sha256Hex : String → String} {s : Threads State Cause Op.Ans}
    (h : (machine sha256Hex).system.Reachable s) : Attributed s.shared := by
  refine Machine.contract_invariant (K := fun cause => contract cause.actor?) (I := Attributed)
    (R := Noted) h ?_ ?_ ?_
  · rintro s ⟨tables, rfl⟩ thread cause u effect - hmem
    cases hmem
  · intro s arrival s' new hI _ hstart
    obtain ⟨hkept, hnew⟩ := meets_start hstart
    refine ⟨?_, ?_, ?_⟩
    · intro thread cause u effect hactor hmem
      exact (hI thread cause u effect hactor (hkept ▸ hmem)).mono fun e he => hkept ▸ he
    · intro thread cause socks hnoted u hactor sock hsock
      exact hkept ▸ hnoted u hactor sock hsock
    · exact fun thread e he => ⟨[], fun _ _ _ hsock => absurd hsock (by simp), hnew e he⟩
  · intro s thread cause o k c s' a new socks hI hnoted hallowed _ _ hperform
    have hpair : (machine sha256Hex).perform s.shared thread cause o c =
        some ((perform s.shared thread cause o c).1, (perform s.shared thread cause o c).2, []) := rfl
    rw [hpair, Option.some.injEq, Prod.mk.injEq, Prod.mk.injEq] at hperform
    obtain ⟨rfl, rfl, rfl⟩ := hperform
    have hacts (u : UserId) (hactor : cause.actor? = some u) : ActsFor u socks o := by
      rw [hactor] at hallowed
      exact hallowed
    have hgrows : ∀ e ∈ s.shared.log, e ∈ (perform s.shared thread cause o c).1.log := by
      intro e he
      rcases perform_log s.shared thread cause o c with heq | ⟨effect, -, heq⟩
      · exact heq ▸ he
      · exact heq ▸ List.mem_append_left _ he
    refine ⟨?_, ?_, ?_, ?_, by simp⟩
    · intro thread' cause' u effect hactor hmem
      rcases perform_log s.shared thread cause o c with heq | ⟨effect', hlogs, heq⟩
      · exact (hI _ _ _ _ hactor (heq ▸ hmem)).mono hgrows
      · rw [heq, List.mem_append, List.mem_singleton] at hmem
        rcases hmem with hold | hlast
        · exact (hI _ _ _ _ hactor hold).mono hgrows
        · cases hlast
          exact ((hacts u hactor).concerns hlogs (hnoted u hactor)).mono hgrows
    · cases hactor : cause.actor? <;> trivial
    · intro u hactor
      rw [hactor]
      exact erased_logged s.shared thread cause (hacts u hactor) (hnoted u hactor)
    · intro thread' cause' socks' _ hnoted' u hactor sock hsock
      exact hgrows _ (hnoted' u hactor sock hsock)

/-- In every run, whatever connections log in, close and interleave, the effects of
a chat, reply or offline packet concern the user the packet names. -/
theorem effects_concern_actor {sha256Hex : String → String} {s : Threads State Cause Op.Ans}
    (h : (machine sha256Hex).system.Reachable s) {thread conn : Nat} {packet : Packet} {u : UserId}
    {effect : Effect} (hactor : packet.actor? = some u)
    (hlog : (thread, .packet conn packet, effect) ∈ s.shared.log) :
    s.shared.Concerns thread (.packet conn packet) u effect :=
  attributed h thread (.packet conn packet) u effect hactor hlog

/-! ## Sample runs -/

def sampleTables : Tables where
  users :=
    [{ id := 1, name := "one", tel := "1", passwd := "salt-pass", salt := "salt-" },
      { id := 2, name := "two", tel := "2", passwd := "salt-word", salt := "salt-" }]

/-- The first user logs in on the connection 0. On the connection 1, where nobody
has logged in, a packet takes the user offline. -/
def sampleRun : List (Threads.Action Arrival Choice) :=
  [.start (.accept 10), .start (.accept 11),
    .start (.packet 0 (.loginRq { tel := "1", pass := "pass" }))] ++
  List.replicate 12 (.run 0 {}) ++ [.start (.packet 1 (.friendOffline 1))] ++
  List.replicate 6 (.run 1 {})

/-- The hash function does not matter here. -/
abbrev sampleSystem : System (Threads State Cause Op.Ans) (Threads.Action Arrival Choice) :=
  (machine fun s => s).system

abbrev sampleState : Threads State Cause Op.Ans :=
  sampleSystem.after { shared := { tables := sampleTables } } sampleRun

theorem sampleState_reachable : sampleSystem.Reachable sampleState :=
  System.reachable_after ⟨⟨sampleTables, rfl⟩, rfl⟩ (by decide +kernel)

theorem effects_concern_actor_sample :
    (1, .packet 1 (.friendOffline 1), .closed 10) ∈ sampleState.shared.log ∧
      sampleState.shared.Concerns 1 (.packet 1 (.friendOffline 1)) 1 (.closed 10) := by
  have hlog : (1, Cause.packet 1 (.friendOffline 1), Effect.closed 10) ∈ sampleState.shared.log := by
    decide +kernel
  exact ⟨hlog, effects_concern_actor sampleState_reachable rfl hlog⟩

/-- Nobody has logged in on the connection whose packet closes that of the first user. -/
theorem offline_of_another : sampleSystem.Reachable sampleState ∧
    sampleState.shared.LoggedIn 0 1 ∧ ¬ sampleState.shared.OwnOnly := by
  refine ⟨sampleState_reachable, ⟨0, .loginRq { tel := "1", pass := "pass" }, by decide +kernel⟩, ?_⟩
  intro hown
  have hlog : (1, Cause.packet 1 (.friendOffline 1), Effect.closed 10) ∈ sampleState.shared.log := by
    decide +kernel
  obtain ⟨u, ⟨thread, packet, hlogin⟩, -⟩ := hown _ _ _ _ rfl rfl hlog
  have hnone : (sampleState.shared.log.all fun
      | (_, .packet 1 _, .loggedIn _) => false
      | _ => true) = true := by decide +kernel
  exact absurd (List.all_eq_true.mp hnone _ hlogin) (by simp)

end Kernel
