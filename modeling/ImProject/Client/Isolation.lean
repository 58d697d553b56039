-- SUMMARY: When the end of a connection of `ImClient` leaves a newer one alone.
import ImProject.Client.Connection

/-!
# Connections that do not disturb each other

Nothing tells `closeQuietly` whose fields it clears, and nothing tells a read loop
whose channel it finds. Only the order in which connections come and go can keep
them apart.
-/

open Library

namespace Connection

/-- A newer connection is left alone, and a channel is used on its own socket only. -/
def Effect.Own (n : Nat) : Effect → Prop
  | .socketClosed m | .flagCleared m | .channelDestroyed m => m ≤ n
  | .decrypted m => m = n

def Isolated (log : List (Nat × Effect)) : Prop := ∀ e ∈ log, e.2.Own e.1

/-- When a connection is stored, there is no read loop, and no earlier call of `connect`
is still under way. -/
def Apart (s : Threads Client Call Op.Ans) : Threads.Action Call Bool → Prop
  | .start _ => True
  | .run thread _ =>
    match s.threads[thread]? with
    | some (_, .act (.setSocket (some n)) _) =>
      s.shared.reading = [] ∧ ∀ m ∈ s.shared.connecting, n ≤ m
    | _ => True

instance (s : Threads Client Call Op.Ans) (a : Threads.Action Call Bool) :
    Decidable (Apart s a) := by
  unfold Apart
  split <;> try split
  all_goals infer_instance

/-! ## The fields -/

/-- The connection `m` is in one of the fields. -/
def Client.Holds (s : Client) (m : Nat) : Prop :=
  s.socket = some m ∨ s.secureChannel = some m ∨ s.connected = some m

/-- A call of `connect` under way finds nothing newer in the fields, a read loop only
its own connection. A call that stores its connection is the oldest one, and no read
loop is there. -/
structure Ordered (s : Client) : Prop where
  begun : ∀ m, s.Holds m → m < s.begun.length
  numbered : ∀ m ∈ s.connecting, m < s.begun.length
  connecting : ∀ n ∈ s.connecting, ∀ m, s.Holds m → m ≤ n
  reading : ∀ n ∈ s.reading, ∀ m, s.Holds m → m = n
  installing : ∀ n, s.installing = some n →
    n ∈ s.connecting ∧ (∀ m ∈ s.connecting, n ≤ m) ∧ s.reading = []
  log : Isolated s.log

/-! ## The contract of a thread -/

/-- How far a call of `connect` has come. -/
inductive Stage where
  | new
  | connecting (n : Nat)
  /-- The fields it has stored. -/
  | installing (n : Nat) (channel connected : Bool)
  | reading (n : Nat)
  | over
  /-- The thread is not a call of `connect`. -/
  | other
  deriving DecidableEq

/-- The connection that is torn down at this stage. -/
def Stage.teardown : Stage → Option (Option Nat)
  | .connecting n | .reading n => some (some n)
  | .other => some none
  | _ => none

def contract : Contract Stage Op.Ans where
  Allowed stage
    | .begin => stage = .new
    | .setSocket (some n) => stage = .connecting n
    | .setSecureChannel (some n) => stage = .installing n false false
    | .setConnected n => stage = .installing n true false
    | .launch n => stage = .installing n true true
    | .clearConnected n => stage.teardown = some n
    | .closeSocket n m | .destroy n m => stage.teardown = some n ∧ ∀ k ∈ n, m ≤ k
    | .decrypt n m => stage = .reading n ∧ m = n
    | .finished n => stage.teardown = some (some n)
    | _ => True
  Answered stage
    | .getSocket, a | .getSecureChannel, a =>
      (∀ n, stage.teardown = some (some n) → ∀ m ∈ a, m ≤ n) ∧ ∀ n, stage = .reading n → ∀ m ∈ a, m = n
    | _, _ => True
  next stage
    | .begin, n => .connecting n
    | .setSocket (some n), _ => .installing n false false
    | .setSecureChannel (some n), _ => .installing n true false
    | .setConnected n, _ => .installing n true true
    | .launch n, _ => .reading n
    | .finished _, _ => .over
    | _, _ => stage

/-- What is called, if it is, and the rest go on at the same stage. -/
theorem safeCall_bind {Q : Stage → Unit → Prop} {stage : Stage} {o : Option Nat}
    {f : Nat → Method Unit} {rest : Method Unit}
    (hf : ∀ m ∈ o, (f m).Ensures contract (fun stage' _ => stage' = stage) stage)
    (hrest : rest.Ensures contract Q stage) :
    (safeCall o f >>= fun _ => rest).Ensures contract Q stage := by
  cases o with
  | none => exact hrest
  | some m =>
    refine (hf m rfl).bind ?_
    rintro _ - rfl
    exact hrest

theorem closeQuietly_ensures {stage : Stage} {n : Option Nat} (h : stage.teardown = some n) :
    (closeQuietly n).Ensures contract (fun stage' _ => stage' = stage) stage := by
  have hn : ∀ k ∈ n, stage.teardown = some (some k) := fun k hk => h.trans (congrArg some hk)
  refine ⟨h, fun _ _ => ⟨trivial, fun socket hsocket => safeCall_bind (fun m hm => ?_) ?_⟩⟩
  · exact ⟨⟨h, fun k hk => hsocket.1 k (hn k hk) m hm⟩, fun _ _ => rfl⟩
  · refine ⟨trivial, fun _ _ => ⟨trivial, fun channel hchannel => safeCall_bind (fun m hm => ?_) ?_⟩⟩
    · exact ⟨⟨h, fun k hk => hchannel.1 k (hn k hk) m hm⟩, fun _ _ => rfl⟩
    · exact ⟨trivial, fun _ _ => rfl⟩

theorem readFrames_ensures (n frames : Nat) :
    (readFrames n frames).Ensures contract (fun stage _ => stage = .reading n) (.reading n) := by
  induction frames with
  | zero => rfl
  | succ frames ih =>
    refine ⟨trivial, fun read _ => ?_⟩
    cases read with
    | false => rfl
    | true =>
      refine ⟨trivial, fun channel hchannel => ?_⟩
      cases channel with
      | none => rfl
      | some channel =>
        refine ⟨⟨rfl, hchannel.2 n rfl channel rfl⟩, fun opened _ => ?_⟩
        cases opened with
        | false => rfl
        | true =>
          refine ⟨trivial, fun dispatched _ => ?_⟩
          cases dispatched with
          | false => rfl
          | true => exact ih

theorem send_ensures (stage : Stage) :
    send.Ensures contract (fun stage' _ => stage' = stage) stage := by
  refine ⟨trivial, fun socket _ => ?_⟩
  cases socket with
  | none => rfl
  | some socket =>
    refine ⟨trivial, fun _ _ => ⟨trivial, fun channel _ => safeCall_bind (fun m _ => ?_) ?_⟩⟩
    · refine ⟨trivial, fun encrypted _ => ?_⟩
      cases encrypted with
      | false => rfl
      | true => exact ⟨trivial, fun _ _ => rfl⟩
    · exact ⟨trivial, fun _ _ => rfl⟩

/-- The stage at which a call begins. -/
def Call.stage : Call → Stage
  | .connect _ => .new
  | .disconnect | .send => .other

theorem program_meets (c : Call) : c.program.Meets contract c.stage := by
  cases c with
  | connect frames =>
    refine ⟨rfl, fun n _ => ⟨trivial, fun connected _ => ?_⟩⟩
    cases connected with
    | true => exact ⟨rfl, fun _ _ => trivial⟩
    | false =>
      refine ⟨trivial, fun made _ => ?_⟩
      cases made with
      | false =>
        refine (Prog.Ensures.bind (closeQuietly_ensures rfl) ?_).meets (Q := fun _ _ => True)
        rintro _ - rfl
        exact ⟨rfl, fun _ _ => trivial⟩
      | true =>
        refine ⟨rfl, fun _ _ => ⟨rfl, fun _ _ => ⟨rfl, fun _ _ => ⟨rfl, fun _ _ => ?_⟩⟩⟩⟩
        refine (Prog.Ensures.bind (readFrames_ensures n frames) ?_).meets (Q := fun _ _ => True)
        rintro _ - rfl
        refine (closeQuietly_ensures rfl).bind ?_
        rintro _ - rfl
        exact ⟨rfl, fun _ _ => ⟨trivial, fun _ _ => trivial⟩⟩
  | disconnect => exact (closeQuietly_ensures rfl).meets
  | send => exact (send_ensures .other).meets

/-! ## Steps -/

/-- A thread is where its stage says. -/
def Tied (s : Client) (thread : Nat) (_ : Call) : Stage → Prop
  | .new | .over | .other => True
  | .connecting n => s.begun[n]? = some thread ∧ n ∈ s.connecting ∧ s.installing ≠ some n
  | .installing n channel connected =>
    s.begun[n]? = some thread ∧ s.installing = some n ∧ (∀ m ∈ s.socket, m = n) ∧
      (channel = true → ∀ m ∈ s.secureChannel, m = n) ∧
      (connected = true → ∀ m ∈ s.connected, m = n)
  | .reading n => s.begun[n]? = some thread ∧ n ∈ s.reading

variable {s s' : Client} {thread other : Nat} {c u : Call} {stage : Stage} {n : Nat}

/-- What is torn down is at least as new as what the fields hold. -/
theorem Tied.newest (h : Ordered s) (ht : Tied s thread c stage)
    (hn : stage.teardown = some (some n)) : ∀ m, s.Holds m → m ≤ n := by
  cases stage with
  | connecting k =>
    cases hn
    exact h.connecting n ht.2.1
  | reading k =>
    cases hn
    exact fun m hm => (h.reading n ht.2 m hm).le
  | _ => cases hn

/-- The fields hold no more than before, and nothing else about the connections has changed. -/
structure Fewer (s s' : Client) : Prop where
  socket : ∀ m ∈ s'.socket, m ∈ s.socket
  secureChannel : ∀ m ∈ s'.secureChannel, m ∈ s.secureChannel
  connected : ∀ m ∈ s'.connected, m ∈ s.connected
  begun : s'.begun = s.begun
  connecting : s'.connecting = s.connecting
  installing : s'.installing = s.installing
  reading : s'.reading = s.reading

theorem Fewer.holds (h : Fewer s s') {m : Nat} (hm : s'.Holds m) : s.Holds m := by
  rcases hm with hm | hm | hm
  · exact .inl (h.socket m hm)
  · exact .inr (.inl (h.secureChannel m hm))
  · exact .inr (.inr (h.connected m hm))

theorem Ordered.fewer (h : Ordered s) (hfewer : Fewer s s') (hlog : Isolated s'.log) : Ordered s' where
  begun m hm := by
    rw [hfewer.begun]
    exact h.begun m (hfewer.holds hm)
  numbered m hm := by
    rw [hfewer.begun]
    exact h.numbered m (hfewer.connecting ▸ hm)
  connecting n hn m hm := h.connecting n (hfewer.connecting ▸ hn) m (hfewer.holds hm)
  reading n hn m hm := h.reading n (hfewer.reading ▸ hn) m (hfewer.holds hm)
  installing n hn := by
    rw [hfewer.connecting, hfewer.reading]
    exact h.installing n (hfewer.installing ▸ hn)
  log := hlog

theorem Tied.fewer (h : Tied s thread c stage) (hfewer : Fewer s s') : Tied s' thread c stage := by
  cases stage with
  | connecting n =>
    simp only [Tied, hfewer.begun, hfewer.connecting, hfewer.installing]
    exact h
  | installing n channel connected =>
    obtain ⟨hbegun, hinstalling, hsocket, hchannel, hconnected⟩ := h
    simp only [Tied, hfewer.begun, hfewer.installing]
    exact ⟨hbegun, hinstalling, fun m hm => hsocket m (hfewer.socket m hm),
      fun hc m hm => hchannel hc m (hfewer.secureChannel m hm),
      fun hc m hm => hconnected hc m (hfewer.connected m hm)⟩
  | reading n =>
    simp only [Tied, hfewer.begun, hfewer.reading]
    exact h
  | _ => trivial

/-- The operations by which a connection comes or goes. -/
def Op.Shifts : Op → Prop
  | .begin | .setSocket (some _) | .setSecureChannel (some _) | .setConnected _ | .launch _
  | .finished _ => True
  | _ => False

theorem Fewer.note (h : Fewer s s') (n : Option Nat) (e : Effect) : Fewer s (s'.note n e) := by
  cases n with
  | none => exact h
  | some n => exact ⟨h.socket, h.secureChannel, h.connected, h.begun, h.connecting, h.installing, h.reading⟩

theorem Fewer.refl (s : Client) : Fewer s s :=
  ⟨fun _ => id, fun _ => id, fun _ => id, rfl, rfl, rfl, rfl⟩

theorem perform_fewer {o : Op} {ok : Bool} {a : o.Ans} (h : perform s thread ok o = some (s', a))
    (ho : ¬ o.Shifts) : Fewer s s' := by
  cases o with
  | begin | setConnected n | launch n | finished n => exact (ho trivial).elim
  | setSocket m | setSecureChannel m =>
    cases m with
    | none =>
      cases h
      exact ⟨by simp, by simp, by simp, rfl, rfl, rfl, rfl⟩
    | some m => exact (ho trivial).elim
  | clearConnected n =>
    -- that the flag is cleared is noted if it was set
    cases hconnected : s.connected with
    | none =>
      simp only [perform, hconnected] at h
      cases h
      exact ⟨fun _ => id, fun _ => id, by simp, rfl, rfl, rfl, rfl⟩
    | some m =>
      simp only [perform, hconnected] at h
      cases h
      have hnoted := (Fewer.refl s).note n (.flagCleared m)
      exact ⟨hnoted.socket, hnoted.secureChannel, by simp, hnoted.begun, hnoted.connecting, hnoted.installing,
        hnoted.reading⟩
  | closeSocket n m =>
    cases h
    have hnoted := (Fewer.refl s).note n (.socketClosed m)
    exact ⟨hnoted.socket, hnoted.secureChannel, hnoted.connected, hnoted.begun, hnoted.connecting,
      hnoted.installing, hnoted.reading⟩
  | destroy n m =>
    cases h
    exact (Fewer.refl s).note ..
  | decrypt n m =>
    cases h
    exact (Fewer.refl s).note ..
  | lockWrite =>
    obtain ⟨-, h⟩ := Option.ite_none_right_eq_some.mp h
    cases h
    exact ⟨fun _ => id, fun _ => id, fun _ => id, rfl, rfl, rfl, rfl⟩
  | _ =>
    cases h
    exact ⟨fun _ => id, fun _ => id, fun _ => id, rfl, rfl, rfl, rfl⟩

theorem Isolated.note {e : Effect} {n : Option Nat} (h : Isolated s.log) (he : ∀ k ∈ n, e.Own k) :
    Isolated (s.note n e).log := by
  cases n with
  | none => exact h
  | some n =>
    intro x hx
    rcases List.mem_append.mp hx with hold | hnew
    · exact h x hold
    · rw [List.mem_singleton.mp hnew]
      exact he n rfl

theorem perform_isolated {o : Op} {ok : Bool} {a : o.Ans} (h : Ordered s)
    (ht : Tied s thread c stage) (hallowed : contract.Allowed stage o)
    (hperform : perform s thread ok o = some (s', a)) : Isolated s'.log := by
  cases o with
  | setSocket m =>
    cases m <;> cases hperform <;> exact h.log
  | clearConnected n =>
    cases hperform
    dsimp only
    split
    · exact h.log
    case h_2 m hm =>
      refine h.log.note fun k hk => ?_
      exact ht.newest h (hallowed.trans (congrArg some hk)) m (.inr (.inr hm))
  | closeSocket n m =>
    cases hperform
    exact h.log.note hallowed.2
  | destroy n m =>
    cases hperform
    exact h.log.note hallowed.2
  | decrypt n m =>
    cases hperform
    refine h.log.note fun k hk => ?_
    cases hk
    exact hallowed.2
  | lockWrite =>
    obtain ⟨-, hperform⟩ := Option.ite_none_right_eq_some.mp hperform
    cases hperform
    exact h.log
  | _ =>
    cases hperform
    exact h.log

/-- The condition, for an operation on its own. -/
def Op.Apart (s : Client) : Op → Prop
  | .setSocket (some n) => s.reading = [] ∧ ∀ m ∈ s.connecting, n ≤ m
  | _ => True

/-- The oldest call of `connect` may store its connection when there is no read loop. -/
theorem Ordered.store (h : Ordered s) (hmem : n ∈ s.connecting) (holdest : ∀ m ∈ s.connecting, n ≤ m)
    (hreading : s.reading = []) (hholds : ∀ m, s'.Holds m → m = n ∨ s.Holds m)
    (hbegun : s'.begun = s.begun) (hconnecting : s'.connecting = s.connecting)
    (hinstalling : s'.installing = some n) (hreading' : s'.reading = s.reading)
    (hlog : s'.log = s.log) : Ordered s' where
  begun m hm := by
    rw [hbegun]
    rcases hholds m hm with rfl | hm
    · exact h.numbered m hmem
    · exact h.begun m hm
  numbered m hm := by
    rw [hbegun]
    exact h.numbered m (hconnecting ▸ hm)
  connecting k hk m hm := by
    rw [hconnecting] at hk
    rcases hholds m hm with rfl | hm
    · exact holdest k hk
    · exact h.connecting k hk m hm
  reading k hk := by
    rw [hreading', hreading] at hk
    cases hk
  installing k hk := by
    rw [hinstalling] at hk
    cases hk
    rw [hconnecting, hreading']
    exact ⟨hmem, holdest, hreading⟩
  log := hlog ▸ h.log

/-- The connection that a thread is storing is the one that is being stored. -/
theorem Tied.stores {channel connected : Bool} (h : Ordered s)
    (ht : Tied s thread c (.installing n channel connected)) :
    s.installing = some n ∧ n ∈ s.connecting ∧ (∀ m ∈ s.connecting, n ≤ m) ∧ s.reading = [] :=
  ⟨ht.2.1, h.installing n ht.2.1⟩

theorem Ordered.perform {o : Op} {ok : Bool} {a : o.Ans} (h : Ordered s)
    (ht : Tied s thread c stage) (hallowed : contract.Allowed stage o) (hapart : o.Apart s)
    (hperform : Connection.perform s thread ok o = some (s', a)) : Ordered s' := by
  have hlog := perform_isolated h ht hallowed hperform
  by_cases hshift : ¬ o.Shifts
  · exact h.fewer (perform_fewer hperform hshift) hlog
  · cases o with
    | begin =>
      cases hperform
      refine ⟨fun m hm => ?_, fun m hm => ?_, fun n hn m hm => ?_, h.reading, fun n hn => ?_, hlog⟩
      · simpa using Nat.lt_succ_of_lt (h.begun m hm)
      · rcases List.mem_cons.mp hm with rfl | hm
        · simp
        · simpa using Nat.lt_succ_of_lt (h.numbered m hm)
      · rcases List.mem_cons.mp hn with rfl | hn
        · exact (h.begun m hm).le
        · exact h.connecting n hn m hm
      · obtain ⟨hmem, holdest, hreading⟩ := h.installing n hn
        refine ⟨List.mem_cons_of_mem _ hmem, fun m hm => ?_, hreading⟩
        rcases List.mem_cons.mp hm with rfl | hm
        · exact (h.numbered n hmem).le
        · exact holdest m hm
    | setSocket m =>
      cases m with
      | none => exact (hshift id).elim
      | some n =>
        cases hallowed
        cases hperform
        refine h.store ht.2.1 hapart.2 hapart.1 (fun m hm => ?_) rfl rfl rfl rfl rfl
        rcases hm with hm | hm
        · exact .inl (Option.some.inj hm).symm
        · exact .inr (.inr hm)
    | setSecureChannel m =>
      cases m with
      | none => exact (hshift id).elim
      | some n =>
        cases hallowed
        cases hperform
        obtain ⟨hinstalling, hmem, holdest, hreading⟩ := ht.stores h
        refine h.store hmem holdest hreading (fun m hm => ?_) rfl rfl hinstalling rfl rfl
        rcases hm with hm | hm | hm
        · exact .inr (.inl hm)
        · exact .inl (Option.some.inj hm).symm
        · exact .inr (.inr (.inr hm))
    | setConnected n =>
      cases hallowed
      cases hperform
      obtain ⟨hinstalling, hmem, holdest, hreading⟩ := ht.stores h
      refine h.store hmem holdest hreading (fun m hm => ?_) rfl rfl hinstalling rfl rfl
      rcases hm with hm | hm | hm
      · exact .inr (.inl hm)
      · exact .inr (.inr (.inl hm))
      · exact .inl (Option.some.inj hm).symm
    | launch n =>
      cases hallowed
      cases hperform
      obtain ⟨-, -, -, hreading⟩ := ht.stores h
      obtain ⟨-, -, hsocket, hchannel, hconnected⟩ := ht
      refine ⟨h.begun, fun m hm => h.numbered m (List.mem_of_mem_filter hm),
        fun k hk => h.connecting k (List.mem_of_mem_filter hk), fun k hk m hm => ?_, nofun, hlog⟩
      -- the first read loop, and all that is stored is its own
      rw [hreading, List.mem_singleton] at hk
      subst hk
      rcases hm with hm | hm | hm
      · exact hsocket m hm
      · exact hchannel rfl m hm
      · exact hconnected rfl m hm
    | finished n =>
      cases hperform
      refine ⟨h.begun, fun m hm => h.numbered m (List.mem_of_mem_filter hm),
        fun k hk => h.connecting k (List.mem_of_mem_filter hk),
        fun k hk => h.reading k (List.mem_of_mem_filter hk), fun k hk => ?_, hlog⟩
      obtain ⟨hmem, holdest, hreading⟩ := h.installing k hk
      have hne : k ≠ n := by
        rintro rfl
        cases stage with
        | connecting m =>
          cases hallowed
          exact ht.2.2 hk
        | reading m =>
          cases hallowed
          exact List.not_mem_nil (hreading ▸ ht.2)
        | _ => cases hallowed
      refine ⟨List.mem_filter.mpr ⟨hmem, by simpa using hne⟩,
        fun m hm => holdest m (List.mem_of_mem_filter hm), ?_⟩
      rw [hreading, List.filter_nil]
    | _ => exact (hshift id).elim

/-- The threads of two connections are different. -/
theorem ne_of_begun {m : Nat} (hn : s.begun[n]? = some thread) (hm : s.begun[m]? = some other)
    (hne : other ≠ thread) : m ≠ n := by
  rintro rfl
  exact hne (Option.some.inj (hm.symm.trans hn))

/-- No two threads install their connections at once. -/
theorem Tied.installing_alone {k : Nat} {channel connected channel' connected' : Bool}
    (ht : Tied s thread c (.installing n channel connected))
    (hu : Tied s other u (.installing k channel' connected')) : other = thread := by
  by_contra hne
  have hkn : k = n := Option.some.inj (hu.2.1.symm.trans ht.2.1)
  exact ne_of_begun ht.1 hu.1 hne hkn

/-- The thread of a connection that is torn down. -/
theorem Tied.begun (ht : Tied s thread c stage) (hn : stage.teardown = some (some n)) :
    s.begun[n]? = some thread := by
  cases stage with
  | connecting k | reading k =>
    cases hn
    exact ht.1
  | _ => cases hn

/-- A thread is where it was when another one has performed an operation. -/
theorem Tied.kept {o : Op} {ok : Bool} {a : o.Ans} {stage' : Stage} (h : Ordered s)
    (ht : Tied s thread c stage) (hallowed : contract.Allowed stage o) (hapart : o.Apart s)
    (hperform : Connection.perform s thread ok o = some (s', a)) (hne : other ≠ thread)
    (hu : Tied s other u stage') : Tied s' other u stage' := by
  by_cases hshift : ¬ o.Shifts
  · exact hu.fewer (perform_fewer hperform hshift)
  · cases o with
    | begin =>
      cases hperform
      have happend {k : Nat} (hk : s.begun[k]? = some other) :
          (s.begun ++ [thread])[k]? = some other := by
        rw [List.getElem?_append_left (List.getElem?_eq_some_iff.mp hk).1, hk]
      cases stage' with
      | connecting k => exact ⟨happend hu.1, List.mem_cons_of_mem _ hu.2.1, hu.2.2⟩
      | installing k channel connected => exact ⟨happend hu.1, hu.2⟩
      | reading k => exact ⟨happend hu.1, hu.2⟩
      | _ => trivial
    | setSocket m =>
      cases m with
      | none => exact (hshift id).elim
      | some n =>
        cases hallowed
        cases hperform
        cases stage' with
        | connecting k =>
          have hkn : k ≠ n := ne_of_begun ht.1 hu.1 hne
          exact ⟨hu.1, hu.2.1, fun h => hkn (Option.some.inj h).symm⟩
        | installing k channel connected =>
          -- two calls that are both the oldest
          obtain ⟨-, hmem, holdest, -⟩ := hu.stores h
          exact absurd ((holdest n ht.2.1).antisymm (hapart.2 k hmem)) (ne_of_begun ht.1 hu.1 hne)
        | reading k => exact (List.not_mem_nil (hapart.1 ▸ hu.2)).elim
        | _ => trivial
    | setSecureChannel m =>
      cases m with
      | none => exact (hshift id).elim
      | some n =>
        cases hallowed
        cases hperform
        cases stage' with
        | installing k channel connected =>
          exact absurd (ht.installing_alone hu) hne
        | _ => exact hu
    | setConnected n =>
      cases hallowed
      cases hperform
      cases stage' with
      | installing k channel connected =>
        exact absurd (ht.installing_alone hu) hne
      | _ => exact hu
    | launch n =>
      cases hallowed
      cases hperform
      cases stage' with
      | connecting k =>
        have hkn : k ≠ n := ne_of_begun ht.1 hu.1 hne
        exact ⟨hu.1, List.mem_filter.mpr ⟨hu.2.1, by simpa using hkn⟩, nofun⟩
      | installing k channel connected =>
        exact absurd (ht.installing_alone hu) hne
      | reading k => exact ⟨hu.1, List.mem_cons_of_mem _ hu.2⟩
      | _ => trivial
    | finished n =>
      cases hperform
      have hkn {k : Nat} (hk : s.begun[k]? = some other) : k ≠ n :=
        ne_of_begun (ht.begun hallowed) hk hne
      cases stage' with
      | connecting k =>
        exact ⟨hu.1, List.mem_filter.mpr ⟨hu.2.1, by simpa using hkn hu.1⟩, hu.2.2⟩
      | installing k channel connected => exact hu
      | reading k => exact ⟨hu.1, List.mem_filter.mpr ⟨hu.2, by simpa using hkn hu.1⟩⟩
      | _ => trivial
    | _ => exact (hshift id).elim

/-- A thread gets where its stage says by its own operations. -/
theorem Tied.perform {o : Op} {ok : Bool} {a : o.Ans} (h : Ordered s)
    (ht : Tied s thread c stage) (hallowed : contract.Allowed stage o)
    (hperform : Connection.perform s thread ok o = some (s', a)) :
    Tied s' thread c (contract.next stage o a) := by
  by_cases hshift : ¬ o.Shifts
  · have hnext : contract.next stage o a = stage := by
      cases o with
      | begin | setConnected n | launch n | finished n => exact (hshift trivial).elim
      | setSocket m | setSecureChannel m =>
        cases m with
        | none => rfl
        | some m => exact (hshift trivial).elim
      | _ => rfl
    rw [hnext]
    exact ht.fewer (perform_fewer hperform hshift)
  · cases o with
    | begin =>
      cases hperform
      refine ⟨by simp, List.mem_cons_self, fun hinstalling => ?_⟩
      exact (h.numbered _ (h.installing _ hinstalling).1).false
    | setSocket m =>
      cases m with
      | none => exact (hshift id).elim
      | some n =>
        cases hallowed
        cases hperform
        exact ⟨ht.1, rfl, fun m hm => (Option.some.inj hm).symm, nofun, nofun⟩
    | setSecureChannel m =>
      cases m with
      | none => exact (hshift id).elim
      | some n =>
        cases hallowed
        cases hperform
        exact ⟨ht.1, ht.2.1, ht.2.2.1, fun _ m hm => (Option.some.inj hm).symm, nofun⟩
    | setConnected n =>
      cases hallowed
      cases hperform
      exact ⟨ht.1, ht.2.1, ht.2.2.1, ht.2.2.2.1, fun _ m hm => (Option.some.inj hm).symm⟩
    | launch n =>
      cases hallowed
      cases hperform
      exact ⟨ht.1, List.mem_cons_self⟩
    | finished n => trivial
    | _ => exact (hshift id).elim

/-- The fields hold what the contract promises. -/
theorem perform_answered {o : Op} {ok : Bool} {a : o.Ans} (h : Ordered s)
    (ht : Tied s thread c stage) (hperform : Connection.perform s thread ok o = some (s', a)) :
    contract.Answered stage o a := by
  have hreading : ∀ n, stage = .reading n → ∀ m, s.Holds m → m = n := by
    rintro n rfl
    exact h.reading n ht.2
  cases o with
  | getSocket =>
    cases hperform
    exact ⟨fun n hn m hm => ht.newest h hn m (.inl hm), fun n hn m hm => hreading n hn m (.inl hm)⟩
  | getSecureChannel =>
    cases hperform
    exact ⟨fun n hn m hm => ht.newest h hn m (.inr (.inl hm)),
      fun n hn m hm => hreading n hn m (.inr (.inl hm))⟩
  | _ => trivial

/-! ## Runs -/

/-- If a connection is stored only when no read loop is left and no earlier call of
`connect` is under way, the end of a connection never concerns a newer one, and a read
loop decrypts only with the channel of its own socket. -/
theorem connections_isolated {s : Threads Client Call Op.Ans} (h : system.ReachableWhen Apart s) :
    Isolated s.shared.log := by
  have hordered : Ordered s.shared := by
    refine Machine.contract_invariant (K := fun _ => contract) (I := Ordered) (R := Tied) h ?_ ?_ ?_
    · rintro _ rfl
      have hnone : ∀ m, ¬ Client.Holds {} m := by rintro m (h | h | h) <;> cases h
      exact ⟨fun m hm => (hnone m hm).elim, nofun, nofun, nofun, nofun, nofun⟩
    · rintro s c shared new hordered - hstart
      cases hstart
      refine ⟨hordered, fun _ _ _ h => h, fun thread e he => ?_⟩
      rw [List.mem_singleton.mp he]
      refine ⟨c.stage, ?_, program_meets c⟩
      cases c <;> trivial
    · rintro s thread c o k ok shared a new stage hordered htied hallowed hthread hapart hmachine
      obtain ⟨⟨s', a'⟩, hperform, heq⟩ := Option.map_eq_some_iff.mp hmachine
      cases heq
      have hop : o.Apart s.shared := by
        simp only [Apart, hthread] at hapart
        cases o with
        | setSocket m =>
          cases m with
          | none => trivial
          | some n => exact hapart
        | _ => trivial
      exact ⟨hordered.perform htied hallowed hop hperform, perform_answered hordered htied hperform,
        htied.perform hordered hallowed hperform,
        fun _ _ _ hne hu => Tied.kept hordered htied hallowed hop hperform hne hu, nofun⟩
  exact hordered.log

/-! ## Two connections -/

/-- A thread makes that many steps, and nothing fails. -/
def steps (thread count : Nat) : List (Threads.Action Call Bool) :=
  List.replicate count (.run thread true)

/-- A connection is made and closed by `disconnect`; before its read loop has noticed,
there is another one. -/
def overlapping : List (Threads.Action Call Bool) :=
  [.start (.connect 5)] ++ steps 0 7 ++ [.start .disconnect] ++ steps 1 7 ++
    [.start (.connect 5)] ++ steps 2 7 ++ steps 0 4

/-- The first read loop has closed the second socket. -/
theorem newer_closed : system.Reachable (system.after { shared := {} } overlapping) ∧
    (0, .socketClosed 1) ∈ (system.after { shared := {} } overlapping).shared.log ∧
    ¬ Isolated (system.after { shared := {} } overlapping).shared.log := by
  have hmem : (0, Effect.socketClosed 1) ∈
      (system.after { shared := {} } overlapping).shared.log := by
    decide +kernel
  refine ⟨System.reachable_after ⟨rfl, rfl⟩ (by decide +kernel), hmem, fun h => ?_⟩
  exact absurd (h _ hmem) (by decide : ¬ (1 : Nat) ≤ 0)

/-- A connection is read until it ends, and then there is another one. -/
def successive : List (Threads.Action Call Bool) :=
  [.start (.connect 5)] ++ steps 0 11 ++ [.run 0 false] ++ steps 0 9 ++
    [.start (.connect 5)] ++ steps 1 10

theorem connections_isolated_sample :
    (system.after { shared := {} } successive).shared.log =
      [(0, .decrypted 0), (0, .flagCleared 0), (0, .socketClosed 0), (0, .channelDestroyed 0),
        (1, .decrypted 1)] ∧
      Isolated (system.after { shared := {} } successive).shared.log := by
  have hapart : system.Along Apart { shared := {} } successive := by decide +kernel
  exact ⟨by decide +kernel,
    connections_isolated (System.reachableWhen_after ⟨rfl, rfl⟩ hapart (by decide +kernel))⟩

end Connection
