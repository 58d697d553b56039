-- SUMMARY: The invariant of `AiHandler`: the limiter and the two sets have exactly the requests they should have, and every request ends well.
import ImProject.Ai.Handler
import ImProject.Library.Indexed

/-!
# The life of an AI request

A user has at most one request that is not done, so the key of a request that is active
belongs to no other one. With that, the two sets and the limiter can be read off the requests.
-/

open Library

namespace AiHandler

open AiContextBuilder AiRequestLimiter

/-! ## Keys -/

theorem toList_requestKey {userId : UserId} (h : 0 < userId) (requestId : String) :
    (requestKey userId requestId).toList = Nat.toDigits 10 userId.toNat ++ ':' :: requestId.toList := by
  obtain ⟨n, rfl⟩ := Int.eq_ofNat_of_zero_le (Int.le_of_lt h)
  have hstring : toString (n : Int) = n.repr := rfl
  rw [requestKey, hstring, String.toList_append, String.toList_append, Nat.toList_repr, Int.toNat_natCast]
  simp

/-- The user's number ends at the first colon, whatever is in the id. -/
theorem requestKey_inj {u v : UserId} {a b : String} (hu : 0 < u) (hv : 0 < v)
    (h : requestKey u a = requestKey v b) : u = v ∧ a = b := by
  have hnumber : ∀ (n : Nat) (l : List Char),
      (Nat.toDigits 10 n ++ ':' :: l).takeWhile (· ≠ ':') = Nat.toDigits 10 n := by
    intro n l
    rw [List.takeWhile_append_of_pos, List.takeWhile_cons_of_neg (by simp), List.append_nil]
    intro c hc
    have hdigit : c.isDigit := Nat.isDigit_of_mem_toDigits (by decide) (by decide) hc
    exact decide_eq_true fun heq => absurd (heq ▸ hdigit) (by decide)
  have hlist := congrArg String.toList h
  rw [toList_requestKey hu, toList_requestKey hv] at hlist
  have hdigits := congrArg (List.takeWhile (· ≠ ':')) hlist
  rw [hnumber, hnumber] at hdigits
  rw [hdigits, List.append_cancel_left_eq, List.cons.injEq] at hlist
  have hnat : u.toNat = v.toNat := by
    rw [← Nat.ofDigitChars_toDigits (b := 10) (n := u.toNat) (by decide) (by decide), hdigits,
      Nat.ofDigitChars_toDigits (by decide) (by decide)]
  refine ⟨?_, String.toList_inj.mp hlist.2⟩
  rw [← Int.toNat_of_nonneg (Int.le_of_lt hu), hnat, Int.toNat_of_nonneg (Int.le_of_lt hv)]

/-! ## One request -/

/-- The steps that a request has left, at most. -/
def Phase.rank : Phase → Nat
  | .accepted => 10
  | .entered => 9
  | .posted => 8
  | .started => 7
  | .built _ => 6
  | .calling _ => 5
  | .answered _ => 4
  | .kept _ => 3
  | .leaving => 2
  | .releasing => 1
  | .done => 0

namespace Request

/-- What a request has done in its phase. `alive` says whether its session is still there. -/
def Ok (alive : Prop) (r : Request) : Prop :=
  r.releases = (if r.phase = .done then 1 else 0) ∧ (r.markedEarly = true → r.marked = true) ∧
  match r.phase with
  | .accepted => r.modelCalls = [] ∧ r.responses = [] ∧ r.marked = false
  | .entered | .posted => r.modelCalls = [] ∧ r.responses = []
  | .started | .built _ => r.modelCalls = [] ∧ r.responses = [] ∧ r.markedEarly = false
  | .calling _ | .answered _ | .kept _ => r.responses = [] ∧ r.markedEarly = false
  | .leaving | .releasing | .done =>
    r.responses.length ≤ 1 ∧ (r.markedEarly = true → r.modelCalls = [] ∧ r.responses = []) ∧
      (r.marked = false → alive → r.responses.length = 1)

theorem Ok.mono {alive alive' : Prop} {r : Request} (h : r.Ok alive) (himp : alive' → alive) : r.Ok alive' := by
  obtain ⟨hreleases, hearly, hphase⟩ := h
  refine ⟨hreleases, hearly, ?_⟩
  generalize r.phase = phase at hphase
  cases phase with
  | leaving | releasing | done => exact ⟨hphase.1, hphase.2.1, fun hmarked h => hphase.2.2 hmarked (himp h)⟩
  | _ => exact hphase

/-- What a step of a request does. -/
inductive Works (isCancelled isThere : Bool) (r : Request) : Request → Prop where
  | enter : r.phase = .accepted → Works isCancelled isThere r { r with phase := .entered }
  | post : r.phase = .entered → Works isCancelled isThere r { r with phase := .posted }
  | skip : r.phase = .posted → isCancelled = true → Works isCancelled isThere r { r with phase := .leaving }
  | start : r.phase = .posted → isCancelled = false → Works isCancelled isThere r { r with phase := .started }
  | build (request : AiReplyRequest) (rows : List Row) : r.phase = .started →
      Works isCancelled isThere r { r with phase := .built request, reads := r.reads ++ [rows] }
  | leaveBuilt (request : AiReplyRequest) : r.phase = .built request → isThere = false →
      Works isCancelled isThere r { r with phase := .leaving }
  | replyEmpty (request : AiReplyRequest) (status : AiReplyStatus) (text : String) (suggestions : List Bytes) :
      r.phase = .built request → Works isCancelled isThere r (r.reply status text suggestions)
  | ask (request : AiReplyRequest) : r.phase = .built request →
      Works isCancelled isThere r { r with phase := .calling request, modelCalls := r.modelCalls ++ [request] }
  | answer (request : AiReplyRequest) (result : AiReplyResult) : r.phase = .calling request →
      Works isCancelled isThere r { r with phase := .answered result, modelResults := r.modelResults ++ [result] }
  | discard (result : AiReplyResult) : r.phase = .answered result → isCancelled = true →
      Works isCancelled isThere r { r with phase := .leaving }
  | keep (result : AiReplyResult) : r.phase = .answered result → isCancelled = false →
      Works isCancelled isThere r { r with phase := .kept result }
  | leaveKept (result : AiReplyResult) : r.phase = .kept result → isThere = false →
      Works isCancelled isThere r { r with phase := .leaving }
  | replyResult (result : AiReplyResult) (status : AiReplyStatus) (text : String) (suggestions : List Bytes) :
      r.phase = .kept result → Works isCancelled isThere r (r.reply status text suggestions)
  | leave : r.phase = .leaving → Works isCancelled isThere r { r with phase := .releasing }
  | release : r.phase = .releasing →
      Works isCancelled isThere r { r with phase := .done, releases := r.releases + 1 }

variable {cfg : AiConfig} {isCancelled isThere : Bool} {rows : List Row} {result : AiReplyResult} {r r' : Request}

theorem works_of_work (h : r.work cfg isCancelled isThere rows result = some r') : r.Works isCancelled isThere r' := by
  unfold work at h
  cases hphase : r.phase with
  | accepted =>
    cases hphase ▸ h
    exact .enter hphase
  | entered =>
    cases hphase ▸ h
    exact .post hphase
  | posted =>
    rw [hphase] at h
    cases hc : isCancelled with
    | true =>
      rw [hc] at h
      cases h
      exact .skip hphase rfl
    | false =>
      rw [hc] at h
      cases h
      exact .start hphase rfl
  | started =>
    rw [hphase] at h
    cases h
    exact .build _ rows hphase
  | built request =>
    rw [hphase] at h
    dsimp only at h
    split at h
    · rename_i hthere
      cases h
      exact .leaveBuilt request hphase (by simpa using hthere)
    · split at h
      · cases h
        exact .replyEmpty request _ _ _ hphase
      · cases h
        exact .ask request hphase
  | calling request =>
    rw [hphase] at h
    cases h
    exact .answer request _ hphase
  | answered result =>
    rw [hphase] at h
    cases hc : isCancelled with
    | true =>
      rw [hc] at h
      cases h
      exact .discard result hphase rfl
    | false =>
      rw [hc] at h
      cases h
      exact .keep result hphase rfl
  | kept result =>
    rw [hphase] at h
    dsimp only at h
    split at h
    · rename_i hthere
      cases h
      exact .leaveKept result hphase (by simpa using hthere)
    · split at h
      · cases h
        exact .replyResult result _ _ _ hphase
      · split at h
        · cases h
          exact .replyResult result _ _ _ hphase
        · cases h
          exact .replyResult result _ _ _ hphase
  | leaving =>
    rw [hphase] at h
    cases h
    exact .leave hphase
  | releasing =>
    rw [hphase] at h
    cases h
    exact .release hphase
  | done =>
    rw [hphase] at h
    cases h

/-- A step keeps who the request is of and how it is marked, and brings it nearer to its end. -/
structure Goes (r r' : Request) : Prop where
  session : r'.session = r.session
  userId : r'.userId = r.userId
  requestId : r'.requestId = r.requestId
  marked : r'.marked = r.marked
  rank : r'.phase.rank < r.phase.rank
  phase : (r.phase = .accepted ∧ r'.phase = .entered) ∨
    (r.phase.isActive = true ∧ r.phase ≠ .leaving ∧ r'.phase.isActive = true) ∨
    (r.phase = .leaving ∧ r'.phase = .releasing) ∨ (r.phase = .releasing ∧ r'.phase = .done)

theorem Goes.ne_done (h : Goes r r') : r.phase ≠ .done := by
  intro hdone
  have hrank := h.rank
  rw [hdone] at hrank
  exact absurd hrank (Nat.not_lt_zero _)

theorem Goes.key (h : Goes r r') : r'.key = r.key := by
  rw [Request.key, Request.key, h.userId, h.requestId]

theorem Works.goes (h : r.Works isCancelled isThere r') : r.Goes r' := by
  cases h with
  | _ => constructor <;> simp [Phase.rank, Phase.isActive, reply, *]

theorem Works.ok {alive : Prop} (h : r.Works isCancelled isThere r') (hok : r.Ok alive)
    (hcancelled : r.phase.isActive = true → isCancelled = r.marked) (hthere : alive → isThere = true) : r'.Ok alive := by
  obtain ⟨hreleases, hearly, hphase⟩ := hok
  -- only the two answers add a response; the other steps move the phase
  cases h with
  | replyEmpty request status text suggestions h | replyResult result status text suggestions h =>
    simp only [h] at hreleases hphase
    refine ⟨by simpa [reply] using hreleases, hearly, ?_⟩
    simp [reply, hphase]
  | _ =>
    rename_i h
    simp_all [Ok, Phase.isActive]

end Request

/-! ## All requests -/

structure Inv (s : State) : Prop where
  ok : ∀ r ∈ s.requests, r.Ok ((s.sessions r.session).alive = true)
  user : ∀ r ∈ s.requests, 0 < r.userId ∧ (s.sessions r.session).userId = r.userId
  /-- A user has at most one request that is not done. -/
  single : ∀ (i j : Nat) (r r' : Request), s.requests[i]? = some r → s.requests[j]? = some r' →
    r.phase ≠ .done → r'.phase ≠ .done → r.userId = r'.userId → i = j
  inFlight : ∀ u, u ∈ s.limiter.inFlightUsers ↔ ∃ r ∈ s.requests, r.phase ≠ .done ∧ r.userId = u
  active : ∀ k, k ∈ s.activeRequests ↔ ∃ r ∈ s.requests, r.phase.isActive = true ∧ r.key = k
  cancelled : ∀ k, k ∈ s.cancelledRequests ↔
    ∃ r ∈ s.requests, (r.phase.isActive = true ∧ r.marked = true) ∧ r.key = k

theorem ne_done_of_isActive {phase : Phase} (h : phase.isActive = true) : phase ≠ .done := by
  rintro rfl
  cases h

namespace Inv

variable {s : State} {i j : Nat} {r r' : Request}

/-- A key belongs to one active request. -/
theorem eq_of_key (h : Inv s) (hi : s.requests[i]? = some r) (hj : s.requests[j]? = some r')
    (hr : r.phase.isActive = true) (hr' : r'.phase.isActive = true) (hkey : r.key = r'.key) : i = j := by
  have huser := (h.user r (List.mem_of_getElem? hi)).1
  have huser' := (h.user r' (List.mem_of_getElem? hj)).1
  exact h.single i j r r' hi hj (ne_done_of_isActive hr) (ne_done_of_isActive hr') (requestKey_inj huser huser' hkey).1

/-- So the look at the set tells whether the request itself is marked. -/
theorem isCancelled_iff (h : Inv s) (hi : s.requests[i]? = some r) (hr : r.phase.isActive = true) :
    r.key ∈ s.cancelledRequests ↔ r.marked = true := by
  rw [h.cancelled]
  constructor
  · rintro ⟨t, ht, ⟨hactive, hmarked⟩, hkey⟩
    obtain ⟨j, hj⟩ := List.mem_iff_getElem?.mp ht
    obtain rfl := h.eq_of_key hi hj hr hactive hkey.symm
    rw [hi, Option.some.injEq] at hj
    rwa [hj]
  · intro hmarked
    exact ⟨r, List.mem_of_getElem? hi, ⟨hr, hmarked⟩, rfl⟩

theorem indexes_inFlight (h : Inv s) :
    Indexes (fun r : Request => r.phase ≠ .done) Request.userId s.requests s.limiter.inFlightUsers := h.inFlight

theorem indexes_active (h : Inv s) :
    Indexes (fun r : Request => r.phase.isActive = true) Request.key s.requests s.activeRequests := h.active

theorem indexes_cancelled (h : Inv s) :
    Indexes (fun r : Request => r.phase.isActive = true ∧ r.marked = true) Request.key s.requests
      s.cancelledRequests := h.cancelled

theorem userIds_distinct (h : Inv s) :
    KeysDistinct (fun r : Request => r.phase ≠ .done) Request.userId s.requests := h.single

theorem empty : Inv {} where
  ok := fun _ h => absurd h List.not_mem_nil
  user := fun _ h => absurd h List.not_mem_nil
  single := fun _ _ _ _ h => by simp at h
  inFlight := by simp
  active := by simp
  cancelled := by simp

end Inv

/-! ### A step of a request -/

section

variable {cfg : AiConfig} {s s' : State} {i : Nat} {r r' : Request} {rows : List Row} {result : AiReplyResult}

@[simp] theorem State.shared_sessions (s : State) (r : Request) : (s.shared r).sessions = s.sessions := by
  unfold State.shared
  split <;> rfl

theorem State.shared_of_isActive {s : State} {r : Request} (h : r.phase.isActive = true) (hne : r.phase ≠ .leaving) :
    s.shared r = s := by
  unfold State.shared
  generalize r.phase = phase at h hne
  cases phase with
  | leaving => exact absurd rfl hne
  | accepted | releasing | done => cases h
  | _ => rfl

/-- What a step of a request is, for the request and for the rest. -/
theorem exists_of_proceed (h : s.proceed cfg i rows result = some s') :
    ∃ r r', s.requests[i]? = some r ∧ r.Works (r.key ∈ s.cancelledRequests) (s.isThere r) r' ∧
      s' = { s.shared r with requests := s.requests.set i r' } := by
  simp only [State.proceed, Option.bind_eq_bind, Option.bind_eq_some_iff, Option.pure_def, Option.some.injEq] at h
  obtain ⟨r, hr, r', hwork, rfl⟩ := h
  exact ⟨r, r', hr, Request.works_of_work hwork, rfl⟩

/-- The user of a request is let go when it is done. -/
theorem Inv.inFlight_set (hI : Inv s) (hr : s.requests[i]? = some r) (hgoes : r.Goes r') :
    Indexes (fun r : Request => r.phase ≠ .done) Request.userId (s.requests.set i r')
      (s.shared r).limiter.inFlightUsers := by
  have hold := hI.indexes_inFlight
  rcases hgoes.phase with ⟨hp, hp'⟩ | ⟨hp, hne, hp'⟩ | ⟨hp, hp'⟩ | ⟨hp, hp'⟩
  · simp only [State.shared, hp]
    exact hold.keep hr hgoes.userId (by simp [hp, hp'])
  · rw [State.shared_of_isActive hp hne]
    exact hold.keep hr hgoes.userId (iff_of_true (ne_done_of_isActive hp') (ne_done_of_isActive hp))
  · simp only [State.shared, hp]
    exact hold.keep hr hgoes.userId (by simp [hp, hp'])
  · simp only [State.shared, hp]
    refine hold.leave hr (not_not.mpr hp') fun j t hji hj ht huser => hji ?_
    exact hI.single j i t r hj hr ht hgoes.ne_done huser

/-- The key of a request is in the set as long as it is active. -/
theorem Inv.active_set (hI : Inv s) (hr : s.requests[i]? = some r) (hgoes : r.Goes r') :
    Indexes (fun r : Request => r.phase.isActive = true) Request.key (s.requests.set i r')
      (s.shared r).activeRequests := by
  have hold := hI.indexes_active
  rcases hgoes.phase with ⟨hp, hp'⟩ | ⟨hp, hne, hp'⟩ | ⟨hp, hp'⟩ | ⟨hp, hp'⟩
  · simp only [State.shared, hp]
    exact hold.enter hr hgoes.key (by simp [hp, Phase.isActive]) (by simp [hp', Phase.isActive])
  · rw [State.shared_of_isActive hp hne]
    exact hold.keep hr hgoes.key (iff_of_true hp' hp)
  · have hactive : r.phase.isActive = true := by
      rw [hp]
      rfl
    simp only [State.shared, hp]
    refine hold.leave hr (by simp [hp', Phase.isActive]) fun j t hji hj ht hkey => hji ?_
    exact hI.eq_of_key hj hr ht hactive hkey
  · simp only [State.shared, hp]
    exact hold.keep hr hgoes.key (by simp [hp, hp', Phase.isActive])

/-- What has been cancelled is forgotten together with the key. -/
theorem Inv.cancelled_set (hI : Inv s) (hr : s.requests[i]? = some r) (hgoes : r.Goes r') :
    Indexes (fun r : Request => r.phase.isActive = true ∧ r.marked = true) Request.key (s.requests.set i r')
      (s.shared r).cancelledRequests := by
  have hold := hI.indexes_cancelled
  rcases hgoes.phase with ⟨hp, hp'⟩ | ⟨hp, hne, hp'⟩ | ⟨hp, hp'⟩ | ⟨hp, hp'⟩
  · -- no cancel finds a request whose key has not been entered
    have hunmarked : r.marked = false := by
      have hphase := (hI.ok r (List.mem_of_getElem? hr)).2.2
      rw [hp] at hphase
      exact hphase.2.2
    simp only [State.shared, hp]
    exact hold.keep hr hgoes.key (by simp [hgoes.marked, hunmarked])
  · rw [State.shared_of_isActive hp hne]
    exact hold.keep hr hgoes.key (by simp [hp, hp', hgoes.marked])
  · have hactive : r.phase.isActive = true := by
      rw [hp]
      rfl
    simp only [State.shared, hp]
    refine hold.leave hr (by simp [hp', Phase.isActive]) fun j t hji hj ht hkey => hji ?_
    exact hI.eq_of_key hj hr ht.1 hactive hkey
  · simp only [State.shared, hp]
    exact hold.keep hr hgoes.key (by simp [hp, hp', Phase.isActive])

theorem Inv.proceed (hI : Inv s) (h : s.proceed cfg i rows result = some s') : Inv s' := by
  obtain ⟨r, r', hr, hworks, rfl⟩ := exists_of_proceed h
  have hgoes := hworks.goes
  have hmem := List.mem_of_getElem? hr
  have hset : ∀ t ∈ s.requests.set i r', t = r' ∨ t ∈ s.requests := fun t ht =>
    (List.mem_or_eq_of_mem_set ht).symm
  refine ⟨?_, ?_, ?_, hI.inFlight_set hr hgoes, hI.active_set hr hgoes, hI.cancelled_set hr hgoes⟩
  · intro t ht
    rw [State.shared_sessions]
    rcases hset t ht with rfl | ht
    · rw [hgoes.session]
      refine hworks.ok (hI.ok r hmem) ?_ ?_
      · intro hactive
        rw [Bool.eq_iff_iff, decide_eq_true_eq]
        exact hI.isCancelled_iff hr hactive
      · intro halive
        simp [State.isThere, halive, (hI.user r hmem).2]
    · exact hI.ok t ht
  · intro t ht
    rw [State.shared_sessions]
    rcases hset t ht with rfl | ht
    · rw [hgoes.session, hgoes.userId]
      exact hI.user r hmem
    · exact hI.user t ht
  · exact hI.userIds_distinct.set hr hgoes.userId fun _ => hgoes.ne_done

end

/-! ### The other steps -/

section

variable {cfg : AiConfig} {s : State} {session : Nat}

/-- A request that is new belongs to a user who has none. -/
theorem tryAcquire_accepted (L : Limits) (t : AiRequestLimiter.State) (userId : UserId) (requestId : String) (now : Int)
    (h : (tryAcquire L t userId requestId now).2 = .accepted) :
    userId ∉ t.inFlightUsers ∧
      (tryAcquire L t userId requestId now).1.inFlightUsers = insert userId t.inFlightUsers := by
  unfold tryAcquire at h ⊢
  dsimp only at h ⊢
  split at h
  · cases h
  · rename_i hnew
    split at h
    · cases h
    · rename_i hfree
      split at h
      · cases h
      · rename_i hroom
        split at h
        · cases h
        · rename_i hrate
          rw [if_neg hnew, if_neg hfree, if_neg hroom, if_neg hrate]
          exact ⟨hfree, rfl⟩

theorem tryAcquire_refused (L : Limits) (t : AiRequestLimiter.State) (userId : UserId) (requestId : String) (now : Int)
    (h : (tryAcquire L t userId requestId now).2 ≠ .accepted) :
    (tryAcquire L t userId requestId now).1.inFlightUsers = t.inFlightUsers := by
  unfold tryAcquire at h ⊢
  dsimp only at h ⊢
  split
  · rfl
  · rename_i hnew
    split
    · rfl
    · rename_i hfree
      split
      · rfl
      · rename_i hroom
        split
        · rfl
        · rename_i hrate
          rw [if_neg hnew, if_neg hfree, if_neg hroom, if_neg hrate] at h
          exact absurd rfl h

/-- What happens to a request that the limiter is asked for. -/
inductive Replies (s : State) (session : Nat) : State → Prop where
  | refused (t : State) : t.sessions = s.sessions → t.limiter.inFlightUsers = s.limiter.inFlightUsers →
      t.activeRequests = s.activeRequests → t.cancelledRequests = s.cancelledRequests → t.requests = s.requests →
      Replies s session t
  | accepted (limiter : AiRequestLimiter.State) (r : Request) : 0 < r.userId →
      r.userId = (s.sessions session).userId → r.session = session → r.phase = .accepted →
      r.marked = false → r.markedEarly = false → r.modelCalls = [] → r.responses = [] → r.releases = 0 →
      r.userId ∉ s.limiter.inFlightUsers → limiter.inFlightUsers = insert r.userId s.limiter.inFlightUsers →
      Replies s session { s with limiter, requests := s.requests ++ [r] }

theorem replies_onReply (s : State) (payload : Option AiReplyRq) (isFriend : Bool) (now : Int) :
    Replies s session (s.onReply cfg session payload isFriend now) := by
  have hrefuse : ∀ requestId status text, Replies s session (s.refuse session requestId status text) :=
    fun _ _ _ => .refused _ rfl rfl rfl rfl rfl
  unfold State.onReply
  cases payload with
  | none => exact hrefuse _ _ _
  | some rq =>
    dsimp only
    split
    · exact hrefuse _ _ _
    · rename_i huser
      split
      · exact hrefuse _ _ _
      · split
        · exact hrefuse _ _ _
        · split
          · exact hrefuse _ _ _
          · split
            · exact hrefuse _ _ _
            · have hacc := tryAcquire_accepted cfg.limits s.limiter (s.sessions session).userId rq.requestId now
              have href := tryAcquire_refused cfg.limits s.limiter (s.sessions session).userId rq.requestId now
              generalize tryAcquire cfg.limits s.limiter (s.sessions session).userId rq.requestId now = answer at hacc href
              obtain ⟨limiter, start⟩ := answer
              cases start with
              | accepted =>
                obtain ⟨hfree, hlimiter⟩ := hacc rfl
                exact .accepted limiter _ (lt_of_not_ge huser) rfl rfl rfl rfl rfl rfl rfl rfl hfree hlimiter
              | duplicate | rateLimited | queueFull | busy =>
                exact .refused _ rfl (href nofun) rfl rfl rfl

theorem Inv.congr {t : State} (hI : Inv s) (hsessions : t.sessions = s.sessions)
    (hlimiter : t.limiter.inFlightUsers = s.limiter.inFlightUsers) (hactive : t.activeRequests = s.activeRequests)
    (hcancelled : t.cancelledRequests = s.cancelledRequests) (hrequests : t.requests = s.requests) : Inv t := by
  obtain ⟨hok, huser, hsingle, hinFlight, hact, hcan⟩ := hI
  constructor
  all_goals simpa only [hsessions, hlimiter, hactive, hcancelled, hrequests]

theorem Inv.onReply (hI : Inv s) {t : State} (h : Replies s session t) : Inv t := by
  cases h with
  | refused t hsessions hlimiter hactive hcancelled hrequests =>
    exact hI.congr hsessions hlimiter hactive hcancelled hrequests
  | accepted limiter r hpos huser hsession hphase hmarked hearly hcalls hresponses hreleases hfree hlimiter =>
    have hnotdone : r.phase ≠ .done := by
      rw [hphase]
      decide
    have hinactive : ¬ r.phase.isActive = true := by
      rw [hphase]
      decide
    refine ⟨?_, ?_, ?_, ?_, hI.indexes_active.concat hinactive, hI.indexes_cancelled.concat fun h => hinactive h.1⟩
    · intro t ht
      rcases List.mem_append.mp ht with ht | ht
      · exact hI.ok t ht
      · cases List.mem_singleton.mp ht
        simp [Request.Ok, hphase, hmarked, hearly, hcalls, hresponses, hreleases]
    · intro t ht
      rcases List.mem_append.mp ht with ht | ht
      · exact hI.user t ht
      · cases List.mem_singleton.mp ht
        exact ⟨hpos, by rw [hsession, huser]⟩
    · -- the limiter would have refused the user of a request that is not done
      refine hI.userIds_distinct.concat fun t ht hopen heq => hfree ?_
      rw [← heq]
      exact hI.indexes_inFlight.of_mem ht hopen
    · have hentered := hI.indexes_inFlight.concat_enter hnotdone
      rwa [← hlimiter] at hentered

/-! ### Cancelling -/

namespace State

variable (userId : UserId) (requestId : String) (r : Request)

theorem mark_keeps : (mark userId requestId r).session = r.session ∧ (mark userId requestId r).userId = r.userId ∧
    (mark userId requestId r).requestId = r.requestId ∧ (mark userId requestId r).phase = r.phase ∧
    (mark userId requestId r).key = r.key := by
  unfold mark
  split <;> exact ⟨rfl, rfl, rfl, rfl, rfl⟩

theorem mark_marked : (mark userId requestId r).marked = true ↔
    r.marked = true ∨ (r.userId = userId ∧ r.requestId = requestId ∧ r.phase.isActive = true) := by
  unfold mark
  split
  · rename_i h
    simp [h]
  · rename_i h
    simp [h]

variable {r} in
theorem mark_ok {alive : Prop} (h : r.Ok alive) : (mark userId requestId r).Ok alive := by
  unfold mark
  split
  · rename_i hmatch
    obtain ⟨hreleases, hearly, hphase⟩ := h
    cases hp : r.phase with
    | accepted | releasing | done => simp [hp, Phase.isActive] at hmatch
    | _ => simp_all [Request.Ok]
  · exact h

end State

theorem Inv.markCancelled (hI : Inv s) {userId : UserId} (hpos : 0 < userId) (requestId : String) :
    Inv (s.markCancelled userId requestId) := by
  unfold State.markCancelled
  split
  · rename_i hactive
    have huserId : ∀ t, (State.mark userId requestId t).userId = t.userId := fun t =>
      (State.mark_keeps userId requestId t).2.1
    have hphase : ∀ t, (State.mark userId requestId t).phase = t.phase := fun t =>
      (State.mark_keeps userId requestId t).2.2.2.1
    have hkey : ∀ t, (State.mark userId requestId t).key = t.key := fun t =>
      (State.mark_keeps userId requestId t).2.2.2.2
    refine ⟨?_, ?_, ?_, ?_, ?_, ?_⟩
    · intro t ht
      obtain ⟨r, hr, rfl⟩ := List.mem_map.mp ht
      rw [(State.mark_keeps userId requestId r).1]
      exact State.mark_ok userId requestId (hI.ok r hr)
    · intro t ht
      obtain ⟨r, hr, rfl⟩ := List.mem_map.mp ht
      rw [(State.mark_keeps userId requestId r).1, huserId]
      exact hI.user r hr
    · exact hI.userIds_distinct.map huserId fun t => by rw [hphase]
    · exact hI.indexes_inFlight.map huserId fun t => by rw [hphase]
    · exact hI.indexes_active.map hkey fun t => by rw [hphase]
    · intro k
      simp only [List.mem_map, exists_exists_and_eq_and, hkey, hphase, State.mark_marked, Finset.mem_insert,
        hI.cancelled k]
      constructor
      · rintro (rfl | ⟨r, hr, ⟨hr', hmarked⟩, rfl⟩)
        · -- the key determines the user and the id
          obtain ⟨r, hr, hr', hkey⟩ := (hI.active _).mp hactive
          obtain ⟨huser, hid⟩ := requestKey_inj (hI.user r hr).1 hpos hkey
          exact ⟨r, hr, ⟨hr', .inr ⟨huser, hid, hr'⟩⟩, hkey⟩
        · exact ⟨r, hr, ⟨hr', .inl hmarked⟩, rfl⟩
      · rintro ⟨r, hr, ⟨hr', hmarked | ⟨rfl, rfl, -⟩⟩, rfl⟩
        · exact .inr ⟨r, hr, ⟨hr', hmarked⟩, rfl⟩
        · exact .inl rfl
  · exact hI

theorem Inv.onCancel (hI : Inv s) (payload : Option String) : Inv (s.onCancel session payload) := by
  unfold State.onCancel
  cases payload with
  | none => exact hI
  | some requestId =>
    dsimp only
    split
    · exact hI
    · rename_i h
      push Not at h
      exact hI.markCancelled h.1 requestId

end

/-! ## Runs -/

/-- The step is one of request `i`. -/
def Action.isOf (i : Nat) : Action → Bool
  | .proceed j _ _ => j == i
  | _ => false

variable {cfg : AiConfig} {s s' : State} {a : Action} {i : Nat} {r : Request}

/-- The sessions of requests keep their users, and none comes back. -/
theorem Inv.sessions (hI : Inv s) {sessions : Nat → SessionInfo}
    (h : ∀ r ∈ s.requests, ((sessions r.session).alive = true → (s.sessions r.session).alive = true) ∧
      (sessions r.session).userId = (s.sessions r.session).userId) : Inv { s with sessions } := by
  obtain ⟨hok, huser, hsingle, hinFlight, hactive, hcancelled⟩ := hI
  refine ⟨fun r hr => (hok r hr).mono (h r hr).1, fun r hr => ?_, hsingle, hinFlight, hactive, hcancelled⟩
  rw [show (sessions r.session).userId = _ from (h r hr).2]
  exact huser r hr

theorem Inv.step (hI : Inv s) (h : s.step cfg a = some s') : Inv s' := by
  cases a with
  | bindAuth session userId =>
    simp only [State.step, Option.ite_none_right_eq_some, Option.some.injEq] at h
    obtain ⟨⟨halive, -, hfree⟩, rfl⟩ := h
    refine hI.sessions fun r hr => ?_
    obtain ⟨hpos, huser⟩ := hI.user r hr
    by_cases heq : r.session = session
    · rw [heq] at huser ⊢
      rw [Function.update_self]
      rcases hfree with hfree | hfree
      · exact absurd hfree (not_le_of_gt (huser ▸ hpos))
      · exact ⟨id, hfree.symm⟩
    · rw [Function.update_of_ne heq]
      exact ⟨id, rfl⟩
  | expire session =>
    simp only [State.step, Option.ite_none_left_eq_some, Option.some.injEq] at h
    obtain ⟨-, rfl⟩ := h
    refine hI.sessions fun r hr => ?_
    by_cases heq : r.session = session
    · rw [heq, Function.update_self]
      exact ⟨fun halive => absurd halive Bool.false_ne_true, rfl⟩
    · rw [Function.update_of_ne heq]
      exact ⟨id, rfl⟩
  | onReply session payload isFriend now =>
    simp only [State.step, Option.ite_none_right_eq_some, Option.some.injEq] at h
    obtain ⟨-, rfl⟩ := h
    exact hI.onReply (replies_onReply s payload isFriend now)
  | onCancel session payload =>
    simp only [State.step, Option.ite_none_right_eq_some, Option.some.injEq] at h
    obtain ⟨-, rfl⟩ := h
    exact hI.onCancel payload
  | proceed i rows result => exact hI.proceed h

theorem inv_of_reachable (h : (machine cfg).Reachable s) : Inv s :=
  h.invariant (fun _ hs => by rw [hs]; exact Inv.empty) fun _ _ _ _ hI _ hstep => hI.step hstep

/-- What a step makes of request `i`. -/
structure Follows (s : State) (a : Action) (i : Nat) (r r' : Request) : Prop where
  session : r'.session = r.session
  userId : r'.userId = r.userId
  requestId : r'.requestId = r.requestId
  rank : r'.phase.rank + (if a.isOf i then 1 else 0) ≤ r.phase.rank
  marked : r'.marked = r.marked ∨ ∃ session, a = .onCancel session (some r.requestId) ∧
    (s.sessions session).userId = r.userId ∧ r.phase.isActive = true

theorem Follows.refl (h : a.isOf i = false) : Follows s a i r r :=
  ⟨rfl, rfl, rfl, by simp [h], .inl rfl⟩

def sampleConfig : AiConfig := { apiKey := "key", model := "model" }

/-- Two users ask at the same time with the same id; the first one cancels. -/
def sampleActions : List Action :=
  let rows : List Row := [⟨2, 1, TEXT, utf8 "hi"⟩]
  let result : AiReplyResult := { suggestions := [utf8 "hello"] }
  [.bindAuth 0 1, .bindAuth 1 2,
    .onReply 0 (some { requestId := "a", peerId := 2 }) true 0, .proceed 0 rows result, .proceed 0 rows result,
    .onReply 1 (some { requestId := "a", peerId := 1 }) true 0, .proceed 1 rows result, .onCancel 0 (some "a"),
    .proceed 1 rows result, .proceed 0 rows result, .proceed 1 rows result, .proceed 1 rows result,
    .proceed 1 rows result, .proceed 0 rows result, .proceed 0 rows result] ++
    List.replicate 5 (.proceed 1 rows result)

/-- The cancelled request ends without an answer, the other one with one. -/
example : ((machine sampleConfig).after {} sampleActions).requests.map
    (fun r => (r.phase, r.marked, r.modelCalls.length, r.responses.map (·.status))) =
      [(.done, true, 0, []), (.done, false, 1, [.ok])] := by
  decide +kernel

end AiHandler
