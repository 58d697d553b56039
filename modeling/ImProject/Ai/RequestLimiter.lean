-- SUMMARY: `AiRequestLimiter`, and the ledger of all acceptances that it answers from although it forgets old ones.
import ImProject.Database.Messages

/-!
# The limiter of AI requests

The limiter keeps, for each user, the times of recent acceptances and the ids seen
lately, and drops old entries when it comes across them. A `Ledger` never forgets an
acceptance and looks at the times instead. As long as time does not run backwards both
give the same answers, and what the limiter guarantees is read off the ledger.
-/

namespace AiRequestLimiter

/-- Times are nanoseconds of the steady clock. -/
def second : Int := 1000000000

def minute : Int := 60 * second

inductive Result where
  | accepted
  | busy
  | rateLimited
  | duplicate
  | queueFull
  deriving DecidableEq

/-- What the constructor makes of its arguments. -/
structure Limits where
  perMinute : Int
  maxPending : Int
  replayWindow : Int
  deriving DecidableEq

def Limits.new (perMinute maxPending replayWindowSeconds : Int) : Limits where
  perMinute := max perMinute 1
  maxPending := max maxPending 1
  replayWindow := max replayWindowSeconds 1 * second

structure State where
  inFlightUsers : Finset UserId := ∅
  recentRequests : UserId → List Int := fun _ => []
  seenIds : UserId → List (String × Int) := fun _ => []

inductive Call where
  | tryAcquire (userId : UserId) (requestId : String) (now : Int)
  | release (userId : UserId)
  deriving DecidableEq

variable (L : Limits)

def tryAcquire (s : State) (userId : UserId) (requestId : String) (now : Int) : State × Result :=
  let rateCutoff := now - minute
  let replayCutoff := now - L.replayWindow
  -- old ids are dropped also when the request is then refused
  let seen := (s.seenIds userId).filter fun e => ¬ e.2 < replayCutoff
  let s := { s with seenIds := Function.update s.seenIds userId seen }
  if requestId ∈ seen.map Prod.fst then (s, .duplicate)
  else if userId ∈ s.inFlightUsers then (s, .busy)
  else if L.maxPending ≤ s.inFlightUsers.card then (s, .queueFull)
  else
    let recent := (s.recentRequests userId).dropWhile fun t => t < rateCutoff
    let s := { s with recentRequests := Function.update s.recentRequests userId recent }
    if L.perMinute ≤ recent.length then (s, .rateLimited)
    else
      ({ inFlightUsers := insert userId s.inFlightUsers
         recentRequests := Function.update s.recentRequests userId (recent ++ [now])
         seenIds := Function.update s.seenIds userId (seen ++ [(requestId, now)]) }, .accepted)

def release (s : State) (userId : UserId) : State :=
  { s with inFlightUsers := s.inFlightUsers.erase userId }

/-- A call and its answer, if it has one. -/
def step (s : State) : Call → State × Option Result
  | .tryAcquire userId requestId now =>
    let (s, result) := tryAcquire L s userId requestId now
    (s, some result)
  | .release userId => (release s userId, none)

/-- A call and its answer. -/
abbrev Entry := Call × Option Result

/-- A sequence of calls with their answers. -/
def log (s : State) : List Call → List Entry
  | [] => []
  | c :: cs => (c, (step L s c).2) :: log (step L s c).1 cs

/-! ## The ledger -/

/-- An accepted request. -/
structure Acceptance where
  userId : UserId
  requestId : String
  time : Int
  deriving DecidableEq

def ofUser (userId : UserId) (l : List Acceptance) : List Acceptance :=
  l.filter (·.userId = userId)

/-- The acceptances from the time `k` on. -/
def since (k : Int) (l : List Acceptance) : List Acceptance := l.filter (k ≤ ·.time)

structure Ledger where
  accepted : List Acceptance := []
  inFlightUsers : Finset UserId := ∅

namespace Ledger

def tryAcquire (g : Ledger) (userId : UserId) (requestId : String) (now : Int) : Ledger × Result :=
  if ∃ a ∈ ofUser userId g.accepted, a.requestId = requestId ∧ now - L.replayWindow ≤ a.time then (g, .duplicate)
  else if userId ∈ g.inFlightUsers then (g, .busy)
  else if L.maxPending ≤ g.inFlightUsers.card then (g, .queueFull)
  else if L.perMinute ≤ (since (now - minute) (ofUser userId g.accepted)).length then (g, .rateLimited)
  else
    ({ accepted := g.accepted ++ [⟨userId, requestId, now⟩]
       inFlightUsers := insert userId g.inFlightUsers }, .accepted)

def step (g : Ledger) : Call → Ledger × Option Result
  | .tryAcquire userId requestId now =>
    let (g, result) := g.tryAcquire L userId requestId now
    (g, some result)
  | .release userId => ({ g with inFlightUsers := g.inFlightUsers.erase userId }, none)

def log (g : Ledger) : List Call → List Entry
  | [] => []
  | c :: cs => (c, (g.step L c).2) :: log (g.step L c).1 cs

def after (g : Ledger) : List Call → Ledger
  | [] => g
  | c :: cs => after (g.step L c).1 cs

end Ledger

/-! ## The limiter follows the ledger -/

theorem since_since {k c : Int} (h : k ≤ c) (l : List Acceptance) :
    since c (since k l) = since c l := by
  rw [since, since, since, List.filter_filter]
  refine List.filter_congr fun a _ => ?_
  simp only [Bool.and_eq_left_iff_imp, decide_eq_true_eq]
  exact h.trans

/-- In the order of time, dropping old entries from the front drops all of them. -/
theorem dropWhile_map_time {c : Int} {l : List Acceptance}
    (h : (l.map (·.time)).Pairwise (· ≤ ·)) :
    (l.map (·.time)).dropWhile (fun t => t < c) = (since c l).map (·.time) := by
  induction l with
  | nil => rfl
  | cons a l ih =>
    rw [List.map_cons, List.pairwise_cons] at h
    rw [List.map_cons, List.dropWhile_cons]
    by_cases hold : a.time < c
    · have hout : ¬ c ≤ a.time := not_le.mpr hold
      rw [if_pos (decide_eq_true hold), ih h.2, since, since, List.filter_cons_of_neg (by simpa using hout)]
    · have hkept : ∀ b ∈ a :: l, c ≤ b.time := by
        intro b hb
        rcases List.mem_cons.mp hb with rfl | hb
        · exact not_lt.mp hold
        · exact (not_lt.mp hold).trans (h.1 _ (List.mem_map_of_mem hb))
      rw [if_neg (by simpa using hold), since, List.filter_eq_self.mpr (by simpa using hkept),
        List.map_cons]

def Acceptance.seen (a : Acceptance) : String × Int := (a.requestId, a.time)

theorem filter_map_seen (c : Int) (l : List Acceptance) :
    (l.map Acceptance.seen).filter (fun e => ¬ e.2 < c) = (since c l).map Acceptance.seen := by
  rw [List.filter_map, since]
  refine congrArg _ (List.filter_congr fun a _ => ?_)
  exact decide_eq_decide.mpr not_lt

/-- The limiter has every acceptance that still counts at `now`, and of the older ones the
latest. -/
structure Follows (now : Int) (s : State) (g : Ledger) : Prop where
  inFlight : s.inFlightUsers = g.inFlightUsers
  recent : ∀ u, ∃ k ≤ now - minute, s.recentRequests u = (since k (ofUser u g.accepted)).map (·.time)
  seen : ∀ u, ∃ k ≤ now - L.replayWindow, s.seenIds u = (since k (ofUser u g.accepted)).map Acceptance.seen
  sorted : (g.accepted.map (·.time)).Pairwise (· ≤ ·)
  past : ∀ a ∈ g.accepted, a.time ≤ now

variable {L} {s : State} {g : Ledger} {now t : Int} {u userId : UserId} {requestId : String}

theorem follows_empty (now : Int) : Follows L now {} {} where
  inFlight := rfl
  recent := fun _ => ⟨now - minute, le_refl _, rfl⟩
  seen := fun _ => ⟨now - L.replayWindow, le_refl _, rfl⟩
  sorted := .nil
  past := nofun

theorem Follows.mono (h : Follows L now s g) (hle : now ≤ t) : Follows L t s g where
  inFlight := h.inFlight
  recent := fun u => (h.recent u).imp fun _ hk => ⟨hk.1.trans (Int.sub_le_sub_right hle _), hk.2⟩
  seen := fun u => (h.seen u).imp fun _ hk => ⟨hk.1.trans (Int.sub_le_sub_right hle _), hk.2⟩
  sorted := h.sorted
  past := fun a ha => (h.past a ha).trans hle

theorem Follows.sorted_of (h : Follows L now s g) (u : UserId) (k : Int) :
    ((since k (ofUser u g.accepted)).map (·.time)).Pairwise (· ≤ ·) := by
  have hsub : (since k (ofUser u g.accepted)).Sublist g.accepted :=
    List.filter_sublist.trans List.filter_sublist
  exact h.sorted.sublist (hsub.map _)

/-- What the limiter looks at in `seenIds`. -/
theorem Follows.seen_now (h : Follows L now s g) (u : UserId) :
    ((s.seenIds u).filter fun e => ¬ e.2 < now - L.replayWindow) =
      (since (now - L.replayWindow) (ofUser u g.accepted)).map Acceptance.seen := by
  obtain ⟨k, hk, heq⟩ := h.seen u
  rw [heq, filter_map_seen, since_since hk]

/-- What the limiter looks at in `recentRequests`. -/
theorem Follows.recent_now (h : Follows L now s g) (u : UserId) :
    ((s.recentRequests u).dropWhile fun t => t < now - minute) =
      (since (now - minute) (ofUser u g.accepted)).map (·.time) := by
  obtain ⟨k, hk, heq⟩ := h.recent u
  rw [heq, dropWhile_map_time (h.sorted_of u k), since_since hk]

/-- The limiter drops entries of `seenIds` that no longer count. -/
theorem Follows.purgeSeen (h : Follows L now s g) (userId : UserId) :
    Follows L now
      { s with
        seenIds := Function.update s.seenIds userId
          ((s.seenIds userId).filter fun e => ¬ e.2 < now - L.replayWindow) } g where
  inFlight := h.inFlight
  recent := h.recent
  seen := by
    refine (Function.forall_update_iff s.seenIds fun u seen => ∃ k ≤ now - L.replayWindow,
      seen = (since k (ofUser u g.accepted)).map Acceptance.seen).mpr ⟨?_, fun u _ => h.seen u⟩
    exact ⟨_, le_refl _, h.seen_now userId⟩
  sorted := h.sorted
  past := h.past

theorem Follows.purgeRecent (h : Follows L now s g) (userId : UserId) :
    Follows L now
      { s with
        recentRequests := Function.update s.recentRequests userId
          ((s.recentRequests userId).dropWhile fun t => t < now - minute) } g where
  inFlight := h.inFlight
  recent := by
    refine (Function.forall_update_iff s.recentRequests fun u recent => ∃ k ≤ now - minute,
      recent = (since k (ofUser u g.accepted)).map (·.time)).mpr ⟨?_, fun u _ => h.recent u⟩
    exact ⟨_, le_refl _, h.recent_now userId⟩
  seen := h.seen
  sorted := h.sorted
  past := h.past

theorem mem_seen_now (c : Int) (l : List Acceptance) (requestId : String) :
    requestId ∈ ((since c l).map Acceptance.seen).map Prod.fst ↔
      ∃ a ∈ l, a.requestId = requestId ∧ c ≤ a.time := by
  simp only [since, List.map_map, List.mem_map, List.mem_filter, decide_eq_true_eq,
    Function.comp_apply, Acceptance.seen]
  constructor
  · rintro ⟨a, ⟨ha, hc⟩, rfl⟩
    exact ⟨a, ha, rfl, hc⟩
  · rintro ⟨a, ha, rfl, hc⟩
    exact ⟨a, ⟨ha, hc⟩, rfl⟩

theorem ofUser_concat_self (a : Acceptance) (l : List Acceptance) :
    ofUser a.userId (l ++ [a]) = ofUser a.userId l ++ [a] := by
  simp [ofUser]

theorem ofUser_concat_of_ne {a : Acceptance} (h : a.userId ≠ u) (l : List Acceptance) :
    ofUser u (l ++ [a]) = ofUser u l := by
  simp [ofUser, h]

theorem since_concat {k : Int} {a : Acceptance} (h : k ≤ a.time) (l : List Acceptance) :
    since k (l ++ [a]) = since k l ++ [a] := by
  simp [since, h]

/-- Both accept. -/
theorem Follows.accept (h : Follows L now s g) (hpos : 0 ≤ L.replayWindow) (userId : UserId)
    (requestId : String) :
    Follows L now
      { inFlightUsers := insert userId s.inFlightUsers
        recentRequests := Function.update s.recentRequests userId
          ((since (now - minute) (ofUser userId g.accepted)).map (·.time) ++ [now])
        seenIds := Function.update s.seenIds userId
          ((since (now - L.replayWindow) (ofUser userId g.accepted)).map Acceptance.seen ++
            [(requestId, now)]) }
      { accepted := g.accepted ++ [⟨userId, requestId, now⟩]
        inFlightUsers := insert userId g.inFlightUsers } where
  inFlight := by
    rw [h.inFlight]
  recent := by
    intro u
    by_cases hu : u = userId
    · subst hu
      have hnew : now - minute ≤ now := Int.sub_le_self _ (by decide)
      refine ⟨now - minute, le_refl _, (Function.update_self _ _ _).trans ?_⟩
      rw [ofUser_concat_self ⟨u, requestId, now⟩, since_concat hnew, List.map_append]
      rfl
    · obtain ⟨k, hk, heq⟩ := h.recent u
      refine ⟨k, hk, (Function.update_of_ne hu _ _).trans ?_⟩
      rw [ofUser_concat_of_ne (Ne.symm hu), heq]
  seen := by
    intro u
    by_cases hu : u = userId
    · subst hu
      have hnew : now - L.replayWindow ≤ now := Int.sub_le_self _ hpos
      refine ⟨now - L.replayWindow, le_refl _, (Function.update_self _ _ _).trans ?_⟩
      rw [ofUser_concat_self ⟨u, requestId, now⟩, since_concat hnew, List.map_append]
      rfl
    · obtain ⟨k, hk, heq⟩ := h.seen u
      refine ⟨k, hk, (Function.update_of_ne hu _ _).trans ?_⟩
      rw [ofUser_concat_of_ne (Ne.symm hu), heq]
  sorted := by
    rw [List.map_append, List.pairwise_append]
    refine ⟨h.sorted, List.pairwise_singleton _ _, ?_⟩
    intro x hx y hy
    obtain ⟨a, ha, rfl⟩ := List.mem_map.mp hx
    cases List.mem_singleton.mp hy
    exact h.past a ha
  past := by
    intro a ha
    rcases List.mem_append.mp ha with ha | ha
    · exact h.past a ha
    · cases List.mem_singleton.mp ha
      exact le_refl _

/-- The limiter gives the answer of the ledger. -/
theorem Follows.tryAcquire (h : Follows L now s g) (hpos : 0 ≤ L.replayWindow) (userId : UserId)
    (requestId : String) :
    (tryAcquire L s userId requestId now).2 = (g.tryAcquire L userId requestId now).2 ∧
      Follows L now (tryAcquire L s userId requestId now).1
        (g.tryAcquire L userId requestId now).1 := by
  have hseen := h.seen_now userId
  have hrecent := h.recent_now userId
  have hpurged := h.purgeSeen userId
  have hboth := hpurged.purgeRecent userId
  have haccept := h.accept hpos userId requestId
  -- both make the same tests in the same order, each on what `h` says it looks at
  unfold AiRequestLimiter.tryAcquire Ledger.tryAcquire
  dsimp only at hboth ⊢
  rw [hseen] at hpurged hboth ⊢
  rw [hrecent] at hboth ⊢
  by_cases hduplicate : ∃ a ∈ ofUser userId g.accepted,
      a.requestId = requestId ∧ now - L.replayWindow ≤ a.time
  · rw [if_pos hduplicate, if_pos ((mem_seen_now _ _ _).mpr hduplicate)]
    exact ⟨rfl, hpurged⟩
  rw [if_neg hduplicate, if_neg (mt (mem_seen_now _ _ _).mp hduplicate), ← h.inFlight]
  by_cases hbusy : userId ∈ s.inFlightUsers
  · rw [if_pos hbusy, if_pos hbusy]
    exact ⟨rfl, hpurged⟩
  rw [if_neg hbusy, if_neg hbusy]
  by_cases hfull : L.maxPending ≤ s.inFlightUsers.card
  · rw [if_pos hfull, if_pos hfull]
    exact ⟨rfl, hpurged⟩
  rw [if_neg hfull, if_neg hfull, List.length_map, Function.update_idem]
  by_cases hlimited : L.perMinute ≤ (since (now - minute) (ofUser userId g.accepted)).length
  · rw [if_pos hlimited, if_pos hlimited]
    exact ⟨rfl, hboth⟩
  rw [if_neg hlimited, if_neg hlimited]
  refine ⟨rfl, ?_⟩
  rw [Function.update_idem, h.inFlight]
  rw [h.inFlight] at haccept
  exact haccept

/-- The time of a call that has one. -/
def Call.time? : Call → Option Int
  | .tryAcquire _ _ now => some now
  | .release _ => none

def times (calls : List Call) : List Int := calls.filterMap Call.time?

@[simp] theorem times_tryAcquire (userId : UserId) (requestId : String) (now : Int)
    (calls : List Call) : times (.tryAcquire userId requestId now :: calls) = now :: times calls := rfl

@[simp] theorem times_release (userId : UserId) (calls : List Call) :
    times (.release userId :: calls) = times calls := rfl

/-- The log is that of the ledger, if time does not run backwards. -/
theorem Follows.log_eq {calls : List Call} (h : Follows L now s g) (hpos : 0 ≤ L.replayWindow)
    (hlater : ∀ t ∈ times calls, now ≤ t) (horder : (times calls).Pairwise (· ≤ ·)) :
    log L s calls = g.log L calls := by
  induction calls generalizing now s g with
  | nil => rfl
  | cons c cs ih =>
    cases c with
    | tryAcquire userId requestId t =>
      rw [times_tryAcquire, List.pairwise_cons] at horder
      obtain ⟨hanswer, hnext⟩ :=
        (h.mono (hlater t List.mem_cons_self)).tryAcquire hpos userId requestId
      have hrest := ih hnext horder.1 horder.2
      rw [log, Ledger.log]
      exact congrArg₂ _ (congrArg _ (congrArg some hanswer)) hrest
    | release userId =>
      rw [log, Ledger.log]
      refine congrArg₂ _ rfl (ih ?_ hlater horder)
      exact ⟨congrArg (·.erase userId) h.inFlight, h.recent, h.seen, h.sorted, h.past⟩

/-! ## What the ledger guarantees -/

namespace Ledger

variable {calls calls' : List Call} {pre post : List Entry}

theorem log_append (g : Ledger) (calls calls' : List Call) :
    g.log L (calls ++ calls') = g.log L calls ++ (g.after L calls).log L calls' := by
  induction calls generalizing g with
  | nil => rfl
  | cons c cs ih => exact congrArg (_ :: ·) (ih _)

theorem map_fst_log (g : Ledger) (calls : List Call) : (g.log L calls).map Prod.fst = calls := by
  induction calls generalizing g with
  | nil => rfl
  | cons c cs ih => exact congrArg (c :: ·) (ih _)

end Ledger

/-- The accepted request of an entry, if it is one. -/
def Entry.acceptance? : Entry → Option Acceptance
  | (.tryAcquire userId requestId now, some .accepted) => some ⟨userId, requestId, now⟩
  | _ => none

/-- The accepted requests of a log. -/
def acceptances (l : List Entry) : List Acceptance := l.filterMap Entry.acceptance?

/-- A request of the user has been accepted, and the user has not been released since. -/
def InFlight (userId : UserId) (l : List Entry) : Prop :=
  ∃ pre requestId now post,
    l = pre ++ (.tryAcquire userId requestId now, some .accepted) :: post ∧
      (.release userId, none) ∉ post

theorem inFlight_concat {l : List Entry} {e : Entry} :
    InFlight u (l ++ [e]) ↔
      (∃ requestId now, e = (.tryAcquire u requestId now, some .accepted)) ∨
        (InFlight u l ∧ e ≠ (.release u, none)) := by
  constructor
  · rintro ⟨pre, requestId, now, post, heq, hno⟩
    rcases List.eq_nil_or_concat post with rfl | ⟨post, e', rfl⟩
    · obtain ⟨-, heq⟩ := List.append_inj' heq rfl
      cases heq
      exact .inl ⟨_, _, rfl⟩
    · rw [List.concat_eq_append, ← List.cons_append, ← List.append_assoc] at heq
      obtain ⟨rfl, hlast⟩ := List.append_inj' heq rfl
      cases hlast
      simp only [List.concat_eq_append, List.mem_append, List.mem_singleton, not_or] at hno
      exact .inr ⟨⟨pre, requestId, now, post, rfl, hno.1⟩, Ne.symm hno.2⟩
  · rintro (⟨requestId, now, rfl⟩ | ⟨⟨pre, requestId, now, post, rfl, hno⟩, hne⟩)
    · exact ⟨l, requestId, now, [], rfl, List.not_mem_nil⟩
    · refine ⟨pre, requestId, now, post ++ [e], by simp, ?_⟩
      simp only [List.mem_append, List.mem_singleton, not_or]
      exact ⟨hno, Ne.symm hne⟩

namespace Ledger

/-- What an accepted request has passed. -/
structure Admits (L : Limits) (g : Ledger) (userId : UserId) (requestId : String) (now : Int) :
    Prop where
  fresh : ∀ a ∈ ofUser userId g.accepted, a.requestId = requestId → a.time < now - L.replayWindow
  idle : userId ∉ g.inFlightUsers
  room : (g.inFlightUsers.card : Int) < L.maxPending
  rate : ((since (now - minute) (ofUser userId g.accepted)).length : Int) < L.perMinute

/-- A request is accepted and noted, or leaves no trace. -/
theorem tryAcquire_cases (g : Ledger) (userId : UserId) (requestId : String) (now : Int) :
    (∃ r, r ≠ .accepted ∧ g.tryAcquire L userId requestId now = (g, r)) ∨
      (g.Admits L userId requestId now ∧
        g.tryAcquire L userId requestId now =
          ({ accepted := g.accepted ++ [⟨userId, requestId, now⟩]
             inFlightUsers := insert userId g.inFlightUsers }, .accepted)) := by
  unfold Ledger.tryAcquire
  by_cases hduplicate : ∃ a ∈ ofUser userId g.accepted,
      a.requestId = requestId ∧ now - L.replayWindow ≤ a.time
  · exact .inl ⟨.duplicate, nofun, if_pos hduplicate⟩
  rw [if_neg hduplicate]
  by_cases hbusy : userId ∈ g.inFlightUsers
  · exact .inl ⟨.busy, nofun, if_pos hbusy⟩
  rw [if_neg hbusy]
  by_cases hfull : L.maxPending ≤ g.inFlightUsers.card
  · exact .inl ⟨.queueFull, nofun, if_pos hfull⟩
  rw [if_neg hfull]
  by_cases hlimited : L.perMinute ≤ (since (now - minute) (ofUser userId g.accepted)).length
  · exact .inl ⟨.rateLimited, nofun, if_pos hlimited⟩
  refine .inr ⟨⟨?_, hbusy, not_le.mp hfull, not_le.mp hlimited⟩, if_neg hlimited⟩
  intro a ha hid
  exact not_le.mp fun hle => hduplicate ⟨a, ha, hid, hle⟩

/-- The state of the ledger says what the log says. -/
structure Invariant (L : Limits) (now : Int) (g : Ledger) (l : List Entry) : Prop where
  accepted : g.accepted = acceptances l
  inFlight : ∀ u, u ∈ g.inFlightUsers ↔ InFlight u l
  pending : (g.inFlightUsers.card : Int) ≤ L.maxPending
  past : ∀ a ∈ g.accepted, a.time ≤ now
  /-- In a minute from any time on, no more than `perMinute` requests of a user. -/
  rate : ∀ u t, (((ofUser u g.accepted).filter fun a => t ≤ a.time ∧ a.time ≤ t + minute).length : Int) ≤
    L.perMinute
  replay : ∀ u, (ofUser u g.accepted).Pairwise fun a b =>
    a.requestId = b.requestId → a.time + L.replayWindow < b.time

variable {l : List Entry}

theorem invariant_nil (hpending : 0 ≤ L.maxPending) (hrate : 0 ≤ L.perMinute) (now : Int) :
    Invariant L now {} [] where
  accepted := rfl
  inFlight := by
    intro u
    refine iff_of_false (Finset.notMem_empty u) ?_
    rintro ⟨pre, requestId, now, post, heq, -⟩
    cases pre <;> cases heq
  pending := hpending
  past := nofun
  rate := fun _ _ => hrate
  replay := fun _ => .nil

theorem Invariant.mono (h : Invariant L now g l) (hle : now ≤ t) : Invariant L t g l where
  accepted := h.accepted
  inFlight := h.inFlight
  pending := h.pending
  past := fun a ha => (h.past a ha).trans hle
  rate := h.rate
  replay := h.replay

/-- The older requests of a minute that takes in `now` are among those of the last minute. -/
theorem Invariant.rate_accept (h : Invariant L now g l) (hadmits : g.Admits L userId requestId now)
    (t : Int) :
    (((ofUser userId g.accepted ++ [(⟨userId, requestId, now⟩ : Acceptance)]).filter fun a =>
      t ≤ a.time ∧ a.time ≤ t + minute).length : Int) ≤ L.perMinute := by
  rw [List.filter_append, List.length_append]
  by_cases hin : t ≤ now ∧ now ≤ t + minute
  · -- such a minute begins no earlier than the last minute does
    have hsub : ((ofUser userId g.accepted).filter fun a => t ≤ a.time ∧ a.time ≤ t + minute).length ≤
        (since (now - minute) (ofUser userId g.accepted)).length := by
      refine (List.monotone_filter_right _ fun a ha => ?_).length_le
      simp only [decide_eq_true_eq] at ha ⊢
      omega
    have hrate := hadmits.rate
    simp only [List.filter_cons, hin, and_self, decide_true, if_true, List.filter_nil,
      List.length_singleton]
    omega
  · simp only [List.filter_cons, hin, decide_false, Bool.false_eq_true, if_false, List.filter_nil,
      List.length_nil, Nat.add_zero]
    exact h.rate userId t

theorem Invariant.accept (h : Invariant L now g l) (hadmits : g.Admits L userId requestId now) :
    Invariant L now
      { accepted := g.accepted ++ [⟨userId, requestId, now⟩]
        inFlightUsers := insert userId g.inFlightUsers }
      (l ++ [(.tryAcquire userId requestId now, some .accepted)]) where
  accepted := by
    rw [h.accepted, acceptances, acceptances, List.filterMap_append]
    rfl
  inFlight := by
    intro u
    rw [Finset.mem_insert, h.inFlight, inFlight_concat]
    constructor
    · rintro (rfl | hu)
      · exact .inl ⟨_, _, rfl⟩
      · exact .inr ⟨hu, nofun⟩
    · rintro (⟨_, _, heq⟩ | ⟨hu, -⟩)
      · cases heq
        exact .inl rfl
      · exact .inr hu
  pending := by
    have hroom := hadmits.room
    rw [Finset.card_insert_of_notMem hadmits.idle]
    omega
  past := by
    intro a ha
    rcases List.mem_append.mp ha with ha | ha
    · exact h.past a ha
    · cases List.mem_singleton.mp ha
      exact le_refl _
  rate := by
    intro u t
    by_cases hu : u = userId
    · subst hu
      rw [ofUser_concat_self ⟨u, requestId, now⟩]
      exact h.rate_accept hadmits t
    · rw [ofUser_concat_of_ne (Ne.symm hu)]
      exact h.rate u t
  replay := by
    intro u
    by_cases hu : u = userId
    · subst hu
      rw [ofUser_concat_self ⟨u, requestId, now⟩, List.pairwise_append]
      refine ⟨h.replay u, List.pairwise_singleton _ _, ?_⟩
      intro a ha b hb hid
      cases List.mem_singleton.mp hb
      have hold := hadmits.fresh a ha hid
      change a.time + L.replayWindow < now
      omega
    · rw [ofUser_concat_of_ne (Ne.symm hu)]
      exact h.replay u

theorem Invariant.reject (h : Invariant L now g l) {r : Result} (hr : r ≠ .accepted) :
    Invariant L now g (l ++ [(.tryAcquire userId requestId now, some r)]) where
  accepted := by
    have hnone : Entry.acceptance? (.tryAcquire userId requestId now, some r) = none := by
      cases r with
      | accepted => exact absurd rfl hr
      | _ => rfl
    rw [h.accepted, acceptances, acceptances, List.filterMap_append, List.filterMap_cons_none hnone,
      List.filterMap_nil, List.append_nil]
  inFlight := by
    intro u
    rw [h.inFlight, inFlight_concat]
    constructor
    · exact fun hu => .inr ⟨hu, nofun⟩
    · rintro (⟨_, _, heq⟩ | ⟨hu, -⟩)
      · cases heq
        exact absurd rfl hr
      · exact hu
  pending := h.pending
  past := h.past
  rate := h.rate
  replay := h.replay

theorem Invariant.release (h : Invariant L now g l) (userId : UserId) :
    Invariant L now { g with inFlightUsers := g.inFlightUsers.erase userId }
      (l ++ [(.release userId, none)]) where
  accepted := by
    rw [h.accepted, acceptances, acceptances, List.filterMap_append]
    exact (List.append_nil _).symm
  inFlight := by
    intro u
    rw [Finset.mem_erase, h.inFlight, inFlight_concat]
    constructor
    · rintro ⟨hne, hu⟩
      refine .inr ⟨hu, fun heq => hne ?_⟩
      cases heq
      rfl
    · rintro (⟨_, _, heq⟩ | ⟨hu, hne⟩)
      · cases heq
      · refine ⟨fun heq => hne ?_, hu⟩
        rw [heq]
  pending := by
    have hle := Finset.card_erase_le (s := g.inFlightUsers) (a := userId)
    have hpending := h.pending
    change ((g.inFlightUsers.erase userId).card : Int) ≤ _
    omega
  past := h.past
  rate := h.rate
  replay := h.replay

/-- By induction on the calls, from any state that meets the invariant. -/
theorem Invariant.run {calls : List Call} (h : Invariant L now g l)
    (hlater : ∀ t ∈ times calls, now ≤ t) (horder : (times calls).Pairwise (· ≤ ·)) :
    ∃ t, Invariant L t (g.after L calls) (l ++ g.log L calls) := by
  induction calls generalizing now g l with
  | nil => exact ⟨now, by simpa [Ledger.log, Ledger.after] using h⟩
  | cons c cs ih =>
    have happend : ∀ e, l ++ e :: (g.step L c).1.log L cs = (l ++ [e]) ++ (g.step L c).1.log L cs := by
      simp
    rw [Ledger.log, happend]
    cases c with
    | tryAcquire userId requestId t =>
      rw [times_tryAcquire, List.pairwise_cons] at horder
      have hnow := h.mono (hlater t List.mem_cons_self)
      rcases tryAcquire_cases (L := L) g userId requestId t with ⟨r, hr, heq⟩ | ⟨hadmits, heq⟩
      · have hstep : g.step L (.tryAcquire userId requestId t) = (g, some r) := by
          simp only [Ledger.step, heq]
        rw [hstep, Ledger.after, hstep]
        exact ih (hnow.reject hr) horder.1 horder.2
      · have hstep : g.step L (.tryAcquire userId requestId t) =
            ({ accepted := g.accepted ++ [⟨userId, requestId, t⟩]
               inFlightUsers := insert userId g.inFlightUsers }, some .accepted) := by
          simp only [Ledger.step, heq]
        rw [hstep, Ledger.after, hstep]
        exact ih (hnow.accept hadmits) horder.1 horder.2
    | release userId => exact ih (h.release userId) hlater horder

/-- An entry of the log is the answer of the ledger at that point. -/
theorem log_split {calls : List Call} {pre post : List Entry} {e : Entry}
    (h : g.log L calls = pre ++ e :: post) :
    ∃ cs cs', calls = cs ++ e.1 :: cs' ∧ pre = g.log L cs ∧
      e.2 = ((g.after L cs).step L e.1).2 ∧
      post = ((g.after L cs).step L e.1).1.log L cs' := by
  induction calls generalizing g pre with
  | nil => cases pre <;> cases h
  | cons c cs ih =>
    rw [Ledger.log] at h
    cases pre with
    | nil =>
      cases h
      exact ⟨[], cs, rfl, rfl, rfl, rfl⟩
    | cons e' pre =>
      obtain ⟨hhead, htail⟩ := List.cons.inj h
      obtain ⟨cs₁, cs₂, rfl, rfl, hanswer, hpost⟩ := ih htail
      subst hhead
      exact ⟨c :: cs₁, cs₂, rfl, rfl, hanswer, hpost⟩

end Ledger

/-! ## What the limiter guarantees -/

/-- What is true of the log of a limiter. -/
structure Guarantees (L : Limits) (l : List Entry) : Prop where
  /-- In every closed minute at most `perMinute` requests of a user are accepted. -/
  rate : ∀ u t, (((ofUser u (acceptances l)).filter fun a =>
    t ≤ a.time ∧ a.time ≤ t + minute).length : Int) ≤ L.perMinute
  /-- Between two acceptances of a user there is a release. -/
  oneAtATime : ∀ (u : UserId) (id id' : String) (t t' : Int) (pre mid post : List Entry),
    l = pre ++ (.tryAcquire u id t, some .accepted) ::
      (mid ++ (.tryAcquire u id' t', some .accepted) :: post) → (.release u, none) ∈ mid
  /-- At most `maxPending` users are in flight. -/
  pending : ∀ users : Finset UserId, (∀ u ∈ users, InFlight u l) → (users.card : Int) ≤ L.maxPending
  /-- Acceptances of a user with one id are more than the replay window apart. -/
  replay : ∀ (u : UserId) (id : String) (t t' : Int) (pre mid post : List Entry),
    l = pre ++ (.tryAcquire u id t, some .accepted) ::
      (mid ++ (.tryAcquire u id t', some .accepted) :: post) → t + L.replayWindow < t'

/-- Without a call that is rejected, the other calls have the same answers. -/
def RejectionsSilent (L : Limits) (calls : List Call) : Prop :=
  ∀ (pre rest : List Entry) (c : Call) (r : Result) (cs cs' : List Call),
    calls = cs ++ c :: cs' → log L {} calls = pre ++ (c, some r) :: rest → pre.length = cs.length →
      r ≠ .accepted → log L {} (cs ++ cs') = pre ++ rest

theorem acceptances_append (l l' : List Entry) :
    acceptances (l ++ l') = acceptances l ++ acceptances l' := List.filterMap_append

theorem acceptances_accepted (u : UserId) (id : String) (t : Int) (l : List Entry) :
    acceptances ((.tryAcquire u id t, some .accepted) :: l) = ⟨u, id, t⟩ :: acceptances l := rfl

theorem Ledger.guarantees {calls : List Call} (hpending : 0 ≤ L.maxPending) (hrate : 0 ≤ L.perMinute)
    (hlater : ∀ t ∈ times calls, now ≤ t) (horder : (times calls).Pairwise (· ≤ ·)) :
    Guarantees L (Ledger.log L {} calls) where
  rate := by
    obtain ⟨t, h⟩ := (Ledger.invariant_nil hpending hrate now).run hlater horder
    intro u t
    have hrate := h.rate u t
    rw [h.accepted] at hrate
    exact hrate
  oneAtATime := by
    intro u id id' t t' pre mid post heq
    rw [← List.cons_append, ← List.append_assoc] at heq
    obtain ⟨cs, cs', rfl, hpre, hanswer, -⟩ := Ledger.log_split heq
    have htimes : times (cs ++ .tryAcquire u id' t' :: cs') =
        times cs ++ times (.tryAcquire u id' t' :: cs') := List.filterMap_append
    rw [htimes] at hlater horder
    obtain ⟨last, h⟩ := (Ledger.invariant_nil hpending hrate now).run
      (fun t ht => hlater t (List.mem_append_left _ ht)) (List.pairwise_append.mp horder).1
    rw [List.nil_append, ← hpre] at h
    -- unreleased, the user is still in flight when the second request comes
    by_contra hno
    have hbusy := (h.inFlight u).mpr ⟨pre, id, t, mid, rfl, hno⟩
    rcases Ledger.tryAcquire_cases (L := L) (Ledger.after L {} cs) u id' t' with
      ⟨r, hr, hstep⟩ | ⟨hadmits, -⟩
    · simp only [Ledger.step, hstep] at hanswer
      exact hr (Option.some.inj hanswer).symm
    · exact hadmits.idle hbusy
  pending := by
    obtain ⟨t, h⟩ := (Ledger.invariant_nil hpending hrate now).run hlater horder
    intro users husers
    have hsub : users ⊆ ((Ledger.after L {} calls).inFlightUsers) := fun u hu =>
      (h.inFlight u).mpr (husers u hu)
    have hle := Finset.card_le_card hsub
    have hpending := h.pending
    omega
  replay := by
    obtain ⟨last, h⟩ := (Ledger.invariant_nil hpending hrate now).run hlater horder
    intro u id t t' pre mid post heq
    have hpair := h.replay u
    rw [h.accepted, List.nil_append, heq, acceptances_append, acceptances_accepted,
      acceptances_append, acceptances_accepted] at hpair
    simp only [ofUser, List.filter_append, List.filter_cons, decide_true, if_true,
      List.pairwise_append, List.pairwise_cons] at hpair
    exact hpair.2.1.1 ⟨u, id, t'⟩ (by simp) rfl

/-- A rejected call leaves the ledger as it was. -/
theorem Ledger.rejection_silent {pre rest : List Entry} {c : Call} {r : Result} {cs cs' : List Call}
    (heq : Ledger.log L {} (cs ++ c :: cs') = pre ++ (c, some r) :: rest)
    (hlength : pre.length = cs.length) (hr : r ≠ .accepted) :
    Ledger.log L {} (cs ++ cs') = pre ++ rest := by
  rw [Ledger.log_append, Ledger.log] at heq
  have hcs : (Ledger.log L {} cs).length = cs.length := by
    rw [← List.length_map (f := Prod.fst), Ledger.map_fst_log]
  obtain ⟨rfl, htail⟩ := List.append_inj heq (hcs.trans hlength.symm)
  obtain ⟨hhead, rfl⟩ := List.cons.inj htail
  have hanswer : ((Ledger.after L {} cs).step L c).2 = some r := congrArg Prod.snd hhead
  rw [Ledger.log_append]
  refine congrArg _ (congrArg (fun g => Ledger.log L g cs') ?_)
  cases c with
  | release userId => cases hanswer
  | tryAcquire userId requestId t =>
    rcases Ledger.tryAcquire_cases (L := L) (Ledger.after L {} cs) userId requestId t with
      ⟨r', -, hstep⟩ | ⟨-, hstep⟩
    · simp only [Ledger.step, hstep]
    · simp only [Ledger.step, hstep] at hanswer
      exact absurd (Option.some.inj hanswer).symm hr

/-- Some time is before all of a list. -/
theorem exists_before (ts : List Int) : ∃ now, ∀ t ∈ ts, now ≤ t := by
  induction ts with
  | nil => exact ⟨0, nofun⟩
  | cons t ts ih =>
    obtain ⟨now, hnow⟩ := ih
    refine ⟨min t now, fun t' ht' => ?_⟩
    rcases List.mem_cons.mp ht' with rfl | ht'
    · exact min_le_left _ _
    · exact (min_le_right _ _).trans (hnow t' ht')

theorem log_eq_ledger {calls : List Call} (hpos : 0 ≤ L.replayWindow)
    (horder : (times calls).Pairwise (· ≤ ·)) : log L {} calls = Ledger.log L {} calls := by
  obtain ⟨now, hlater⟩ := exists_before (times calls)
  exact (follows_empty now).log_eq hpos hlater horder

/-- The limiter that is made with any three numbers, as long as time does not run backwards. -/
theorem limiter_guarantees (perMinute maxPending replayWindowSeconds : Int) (calls : List Call)
    (horder : (times calls).Pairwise (· ≤ ·)) :
    Guarantees (.new perMinute maxPending replayWindowSeconds)
        (log (.new perMinute maxPending replayWindowSeconds) {} calls) ∧
      RejectionsSilent (.new perMinute maxPending replayWindowSeconds) calls := by
  have hpos : 0 ≤ (Limits.new perMinute maxPending replayWindowSeconds).replayWindow :=
    Int.mul_nonneg (by omega) (by decide)
  have hpending : 0 ≤ (Limits.new perMinute maxPending replayWindowSeconds).maxPending := by
    simp only [Limits.new]
    omega
  have hrate : 0 ≤ (Limits.new perMinute maxPending replayWindowSeconds).perMinute := by
    simp only [Limits.new]
    omega
  refine ⟨?_, ?_⟩
  · obtain ⟨now, hlater⟩ := exists_before (times calls)
    rw [log_eq_ledger hpos horder]
    exact Ledger.guarantees hpending hrate hlater horder
  · rintro pre rest c r cs cs' rfl heq hlength hr
    have hsub : (times (cs ++ cs')).Sublist (times (cs ++ c :: cs')) :=
      ((List.sublist_cons_self c cs').append_left cs).filterMap _
    rw [log_eq_ledger hpos horder] at heq
    rw [log_eq_ledger hpos (horder.sublist hsub)]
    exact Ledger.rejection_silent heq hlength hr

/-- Two users, a second request too early, one too many, and a rejected id. -/
def sampleCalls : List Call :=
  [.tryAcquire 1 "a" 0, .tryAcquire 1 "b" second, .release 1, .tryAcquire 1 "b" (2 * second),
    .tryAcquire 2 "a" (3 * second), .release 1, .tryAcquire 1 "a" (60 * second),
    .tryAcquire 1 "c" (61 * second)]

theorem limiter_guarantees_sample :
    (log (.new 2 1 300) {} sampleCalls).map Prod.snd =
      [some .accepted, some .busy, none, some .accepted, some .queueFull, none, some .duplicate,
        some .accepted] ∧
    Guarantees (.new 2 1 300) (log (.new 2 1 300) {} sampleCalls) ∧
      RejectionsSilent (.new 2 1 300) sampleCalls :=
  ⟨by decide +kernel, limiter_guarantees 2 1 300 sampleCalls (by decide +kernel)⟩

end AiRequestLimiter
