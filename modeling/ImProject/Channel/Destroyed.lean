-- SUMMARY: When no call on a `SecureChannel` works with the keys that `destroy` has wiped.
import ImProject.Channel.Monitor
import ImProject.Channel.Wire

/-!
# Calls after `destroy`

`destroy` leaves zeros in the fields and starts the sequences again, and nothing
in `encrypt` or `decrypt` asks whether it has run. So it matters who is in the
monitor when the fields are wiped, and who enters it after that.
-/

open Library

namespace Channel

open SecureChannel

variable {C : Codecs} {aes256GcmEncrypt : Encrypt} {aes256GcmDecrypt : Decrypt}

/-! ## The condition -/

/-- What the call is given is refused whatever the keys are: a security packet, no
envelope, or an envelope that does not name the session of zeros. -/
def Call.refused (C : Codecs) : Call → Bool
  | .encrypt type _ | .send type _ => IsControl type
  | .decrypt frame | .read frame =>
    if frame.type ≠ DEF_PROT_APP_ENCRYPTED_FRAME then true
    else
      match C.encryptedFrame.parse frame.payload with
      | none => true
      | some encrypted => encrypted.sessionId.any (· ≠ 0)
  | .destroy | .close => true

/-- A field is wiped while no call is in the monitor. A call that gets into the monitor
after that has been given something that is refused. -/
def InTime (C : Codecs) (s : Threads Memory Call Op.Ans) : Threads.Action Call Unit → Prop
  | .start _ => True
  | .run n _ =>
    match s.threads[n]? with
    | some (_, .act (.clear _) _) => s.shared.owner = none
    | some (c, .act .enterMonitor _) => s.shared.cleared = [] ∨ c.refused C = true
    | _ => True

instance (s : Threads Memory Call Op.Ans) (a : Threads.Action Call Unit) :
    Decidable (InTime C s a) := by
  unfold InTime
  split <;> try split
  all_goals infer_instance

/-! ## The contract of a call -/

/-- What a thread has noted. -/
structure Progress where
  /-- It holds the monitor. -/
  inside : Bool := false
  /-- The session id it has read last. -/
  session : Option Bytes := none
  /-- It has passed checks that nobody passes once a field is wiped. -/
  passed : Bool := false
  /-- It has wiped the session id. -/
  wiped : Bool := false

/-- If what the call is given is refused, the session id it has read is not all zeros. -/
def Progress.Matches (C : Codecs) (note : Progress) (c : Call) : Prop :=
  c.refused C = true → ∃ sessionId, note.session = some sessionId ∧ sessionId.any (· ≠ 0) = true

def contract (C : Codecs) (c : Call) : Contract Progress Op.Ans where
  Allowed note
    | .get _ | .exitMonitor => note.inside = true
    | .isExhausted | .isNext _ => note.inside = true ∧ note.Matches C c
    | .clear f => f = .sessionId ∨ note.wiped = true
    | .returned _ => note.passed = true
    | .destroyed => note.wiped = true
    | _ => True
  next note
    | .begin, _ => { note with passed := false }
    | .enterMonitor, _ => { inside := true, wiped := note.wiped }
    | .exitMonitor, _ => { note with inside := false }
    | .clear _, _ => { note with wiped := true }
    | .get .sessionId, a => { note with session := some a }
    | .isExhausted, _ | .isNext _, _ => { note with passed := true }
    | _, _ => note

/-- What the body of a call has noted if it returns a frame. -/
def Finished (note : Progress) : Except ChannelError Frame → Prop
  | .ok _ => note.inside = true ∧ note.passed = true
  | .error _ => note.inside = true

theorem encryptBody_ensures {c : Call} {type : BitVec 32} (payload : Bytes)
    (hc : c.refused C = decide (IsControl type)) {note : Progress} (h : note.inside = true) :
    (encryptBody C aes256GcmEncrypt type payload).Ensures (contract C c) Finished note := by
  unfold encryptBody
  split
  · exact h
  · rename_i hcontrol
    have hmatches : note.Matches C c := fun hrefused => by simp [hc, hcontrol] at hrefused
    simp only [Prog.perform_bind]
    refine ⟨⟨h, hmatches⟩, fun exhausted _ => ?_⟩
    cases exhausted with
    | true => exact h
    | false =>
      refine ⟨trivial, fun previous _ => ⟨trivial, fun _ _ => ⟨h, fun noncePrefix _ => ⟨h,
        fun aadSession _ => ⟨h, fun key _ => ?_⟩⟩⟩⟩⟩
      beta_reduce
      cases aes256GcmEncrypt key (frameNonce noncePrefix (previous + 1)) (le32 type ++ payload)
        (frameAad aadSession (previous + 1)) with
      | none => exact h
      | some result => exact ⟨h, fun sessionId _ => ⟨h, rfl⟩⟩

/-- The checks of an envelope leave the thread where it is. A frame that is the next one
has passed them. -/
theorem isExpected_ensures {c : Call} {encrypted : AppEncryptedFrame}
    (hc : c.refused C = encrypted.sessionId.any (· ≠ 0)) {note : Progress}
    (h : note.inside = true) :
    (isExpected encrypted).Ensures (contract C c)
      (fun note expected => note.inside = true ∧ (expected = true → note.passed = true)) note := by
  unfold isExpected
  split
  · exact ⟨h, nofun⟩
  · simp only [Prog.perform_bind]
    refine ⟨h, fun sessionId _ => ?_⟩
    beta_reduce
    split
    · exact ⟨h, nofun⟩
    · rename_i hfields
      have hsession : encrypted.sessionId = sessionId := by
        simp only [not_or, not_not] at hfields
        exact hfields.1
      refine ⟨⟨h, fun hrefused => ⟨sessionId, rfl, ?_⟩⟩, fun next _ => ⟨h, fun _ => rfl⟩⟩
      rw [← hsession, ← hc, hrefused]

theorem decryptBody_ensures {c : Call} {frame : Frame} (hc : c.refused C = Call.refused C (.decrypt frame))
    {note : Progress} (h : note.inside = true) :
    (decryptBody C aes256GcmDecrypt frame).Ensures (contract C c) Finished note := by
  unfold decryptBody
  split
  · exact h
  · rename_i htype
    simp only [Call.refused, htype, if_false] at hc
    cases hparse : C.encryptedFrame.parse frame.payload with
    | none => exact h
    | some encrypted =>
      rw [hparse] at hc
      refine (isExpected_ensures hc h).bind ?_
      rintro note expected ⟨hinside, hpassed⟩
      cases expected with
      | false => exact ⟨trivial, fun _ _ => hinside⟩
      | true =>
        simp only [Bool.not_true, Bool.false_eq_true, if_false, Prog.perform_bind]
        refine ⟨hinside, fun noncePrefix _ => ⟨hinside, fun sessionId _ => ⟨hinside, fun key _ => ?_⟩⟩⟩
        beta_reduce
        cases aes256GcmDecrypt key (frameNonce noncePrefix encrypted.sequence.toBitVec)
            encrypted.ciphertext (frameAad sessionId encrypted.sequence.toBitVec) encrypted.tag with
        | none => exact hinside
        | some plaintext =>
          dsimp only
          cases openPlaintext plaintext with
          | error e => exact hinside
          | ok packet => exact ⟨trivial, fun _ _ => ⟨hinside, hpassed rfl⟩⟩

theorem synchronized_meets (c : Call) {body : Method (Except ChannelError Frame)}
    (h : ∀ note : Progress, note.inside = true → body.Ensures (contract C c) Finished note)
    (note : Progress) : (synchronized body).Ensures (contract C c) (fun _ _ => True) note := by
  refine ⟨trivial, fun _ _ => ⟨trivial, fun _ _ => (h _ rfl).bind ?_⟩⟩
  rintro note result hfinished
  cases result with
  | error e => exact ⟨hfinished, fun _ _ => trivial⟩
  | ok frame => exact ⟨hfinished.1, fun _ _ => ⟨hfinished.2, fun _ _ => trivial⟩⟩

/-- The session id is wiped first. -/
theorem destroyCall_meets (c : Call) (note : Progress) :
    destroyCall.Ensures (contract C c) (fun _ _ => True) note :=
  ⟨.inl rfl, fun _ _ => ⟨.inr rfl, fun _ _ => ⟨.inr rfl, fun _ _ => ⟨.inr rfl, fun _ _ =>
    ⟨.inr rfl, fun _ _ => ⟨trivial, fun _ _ => ⟨trivial, fun _ _ => ⟨rfl,
      fun _ _ => trivial⟩⟩⟩⟩⟩⟩⟩⟩

theorem program_meets (c : Call) (note : Progress) :
    (c.program C aes256GcmEncrypt aes256GcmDecrypt).Ensures (contract C c) (fun _ _ => True)
      note := by
  cases c with
  | encrypt type payload =>
    exact synchronized_meets _ (fun note h => encryptBody_ensures payload rfl h) note
  | decrypt frame =>
    exact synchronized_meets _ (fun note h => decryptBody_ensures rfl h) note
  | destroy => exact destroyCall_meets _ note
  | send type payload =>
    refine ⟨trivial, fun _ _ => ⟨trivial, fun present _ => ?_⟩⟩
    cases present with
    | false => exact ⟨trivial, fun _ _ => trivial⟩
    | true =>
      refine (synchronized_meets _ (fun note h => encryptBody_ensures payload rfl h) _).bind ?_
      exact fun _ _ _ => ⟨trivial, fun _ _ => trivial⟩
  | read frame =>
    refine ⟨trivial, fun present _ => ?_⟩
    cases present with
    | false => trivial
    | true => exact synchronized_meets _ (fun note h => decryptBody_ensures rfl h) _
  | close =>
    refine ⟨trivial, fun present _ => ?_⟩
    cases present with
    | false => exact ⟨trivial, fun _ _ => trivial⟩
    | true => exact (destroyCall_meets _ _).bind fun _ _ _ => ⟨trivial, fun _ _ => trivial⟩

/-! ## Runs -/

/-- Nobody is late, and nobody reads a wiped field, before one is wiped; the session id
is the first. The frames returned so far are those of calls that were in time. -/
structure Sound (s : Memory) : Prop where
  destroyed : s.destroyed = true → s.cleared ≠ []
  late : ∀ n ∈ s.late, s.cleared ≠ []
  touched : ∀ n ∈ s.touched, s.cleared ≠ []
  zeros : s.cleared ≠ [] → s.channel.sessionId.any (· ≠ 0) = false
  frames : ∀ r ∈ s.frames, r.late = false ∧ r.wiped = false

/-- What the thread `n` has noted is so. -/
structure Tied (C : Codecs) (s : Memory) (n : Nat) (c : Call) (note : Progress) : Prop where
  owner : note.inside = true → s.owner = some n
  entered : note.inside = true → s.cleared = [] ∨ c.refused C = true
  session : note.inside = true → ∀ b, note.session = some b → s.channel.sessionId = b
  passed : note.passed = true →
    n ∉ s.late ∧ n ∉ s.touched ∧ (note.inside = true → s.cleared = [])
  wiped : note.wiped = true → s.cleared ≠ []

/-- What matters to the thread `m` is as before. -/
structure Kept (s s' : Memory) (m : Nat) : Prop where
  owner : s.owner = some m →
    s'.owner = some m ∧ s'.cleared = s.cleared ∧ s'.channel.sessionId = s.channel.sessionId
  late : m ∈ s'.late → m ∈ s.late
  touched : m ∈ s'.touched → m ∈ s.touched
  cleared : s.cleared ≠ [] → s'.cleared ≠ []

variable {s s' : Memory} {n m : Nat} {c u : Call} {note : Progress}

theorem Tied.kept (h : Tied C s m u note) (hkept : Kept s s' m) : Tied C s' m u note where
  owner hinside := (hkept.owner (h.owner hinside)).1
  entered hinside := by
    rw [(hkept.owner (h.owner hinside)).2.1]
    exact h.entered hinside
  session hinside b hread := by
    rw [(hkept.owner (h.owner hinside)).2.2]
    exact h.session hinside b hread
  passed hpassed := by
    obtain ⟨hlate, htouched, hcleared⟩ := h.passed hpassed
    refine ⟨fun hm => hlate (hkept.late hm), fun hm => htouched (hkept.touched hm), ?_⟩
    intro hinside
    rw [(hkept.owner (h.owner hinside)).2.1]
    exact hcleared hinside
  wiped hwiped := hkept.cleared (h.wiped hwiped)

/-- The operations by which a thread does not change what matters to itself. -/
def Op.Quiet : Op → Prop
  | .begin | .enterMonitor | .exitMonitor | .get _ | .clear _ => False
  | _ => True

theorem perform_kept {o : Op} {a : o.Ans} (h : perform s n o = some (s', a))
    (hclear : ∀ f, o = .clear f → s.owner = none)
    (hexit : o = .exitMonitor → s.owner = some n) (hm : m ≠ n ∨ o.Quiet) : Kept s s' m := by
  cases o with
  | begin =>
    cases h
    refine ⟨fun h => ⟨h, rfl, rfl⟩, fun hlate => ?_, id, id⟩
    have hne : m ≠ n := hm.resolve_right id
    dsimp only at hlate
    split at hlate
    · exact (List.mem_cons.mp hlate).resolve_left hne
    · exact hlate
  | enterMonitor =>
    obtain ⟨hfree, h⟩ := Option.ite_none_right_eq_some.mp h
    cases h
    exact ⟨fun h => (Option.some_ne_none m (h.symm.trans hfree)).elim, id, id, id⟩
  | exitMonitor =>
    cases h
    refine ⟨fun howner => ?_, id, id, id⟩
    rw [hexit rfl] at howner
    exact absurd (Option.some.inj howner).symm (hm.resolve_right id)
  | get f =>
    cases h
    refine ⟨fun h => ⟨h, rfl, rfl⟩, id, fun htouched => ?_, id⟩
    have hne : m ≠ n := hm.resolve_right id
    dsimp only at htouched
    split at htouched
    · exact (List.mem_cons.mp htouched).resolve_left hne
    · exact htouched
  | clear f =>
    cases h
    refine ⟨fun howner => ?_, id, id, fun _ => List.cons_ne_nil f s.cleared⟩
    rw [hclear f rfl] at howner
    cases howner
  | lockWrite =>
    obtain ⟨-, h⟩ := Option.ite_none_right_eq_some.mp h
    cases h
    exact ⟨fun h => ⟨h, rfl, rfl⟩, id, id, id⟩
  | setSendSequence sequence | setReceiveSequence sequence =>
    cases h
    exact ⟨fun h => ⟨h, rfl, rfl⟩, id, id, id⟩
  | _ =>
    cases h
    exact ⟨fun h => ⟨h, rfl, rfl⟩, id, id, id⟩

theorem Tied.quiet {o : Op} {a : o.Ans} (h : Tied C s n c note) (hperform : perform s n o = some (s', a))
    (hq : o.Quiet) : Tied C s' n c note := by
  refine h.kept (perform_kept hperform ?_ ?_ (.inr hq))
  · rintro f rfl
    exact hq.elim
  · rintro rfl
    exact hq.elim

theorem any_secureClear (bytes : Bytes) : (secureClear bytes).any (· ≠ 0) = false := by
  simp [secureClear]

/-- Wiping leaves zeros in the session id. -/
theorem sessionId_clear {ch : SecureChannel} {f : Field}
    (h : f = .sessionId ∨ ch.sessionId.any (· ≠ 0) = false) :
    (ch.clear f).sessionId.any (· ≠ 0) = false := by
  cases f with
  | sessionId => exact any_secureClear _
  | _ => exact h.resolve_left nofun

theorem Sound.perform {o : Op} {a : o.Ans} (h : Sound s) (ht : Tied C s n c note)
    (hallowed : (contract C c).Allowed note o) (hperform : Channel.perform s n o = some (s', a)) :
    Sound s' := by
  cases o with
  | begin =>
    cases hperform
    refine ⟨h.destroyed, fun m hm => ?_, h.touched, h.zeros, h.frames⟩
    dsimp only at hm
    split at hm
    case isTrue hdestroyed => exact h.destroyed hdestroyed
    case isFalse => exact h.late m hm
  | get f =>
    cases hperform
    refine ⟨h.destroyed, h.late, fun m hm => ?_, h.zeros, h.frames⟩
    dsimp only at hm
    split at hm
    case isTrue hcleared => exact List.ne_nil_of_mem hcleared
    case isFalse => exact h.touched m hm
  | clear f =>
    cases hperform
    have hcleared : f :: s.cleared ≠ [] := List.cons_ne_nil f s.cleared
    have hzeros := sessionId_clear (hallowed.imp_right fun hwiped => h.zeros (ht.wiped hwiped))
    exact ⟨fun _ => hcleared, fun _ _ => hcleared, fun _ _ => hcleared, fun _ => hzeros, h.frames⟩
  | destroyed =>
    cases hperform
    exact ⟨fun _ => ht.wiped hallowed, h.late, h.touched, h.zeros, h.frames⟩
  | returned frame =>
    cases hperform
    obtain ⟨hlate, htouched, -⟩ := ht.passed hallowed
    refine ⟨h.destroyed, h.late, h.touched, h.zeros, fun r hr => ?_⟩
    rcases List.mem_append.mp hr with hold | hnew
    · exact h.frames r hold
    · rw [List.mem_singleton.mp hnew]
      exact ⟨decide_eq_false hlate, decide_eq_false htouched⟩
  | enterMonitor | lockWrite =>
    obtain ⟨-, hperform⟩ := Option.ite_none_right_eq_some.mp hperform
    cases hperform
    exact ⟨h.destroyed, h.late, h.touched, h.zeros, h.frames⟩
  | _ =>
    cases hperform
    exact ⟨h.destroyed, h.late, h.touched, h.zeros, h.frames⟩

/-- Whoever passes the checks in the monitor has entered it before a field was wiped. -/
theorem Tied.in_time (hsound : Sound s) (h : Tied C s n c note) (hinside : note.inside = true)
    (hmatches : note.Matches C c) : s.cleared = [] := by
  rcases h.entered hinside with hnone | hrefused
  · exact hnone
  · by_contra hsome
    obtain ⟨sessionId, hread, hany⟩ := hmatches hrefused
    rw [← h.session hinside sessionId hread, hsound.zeros hsome] at hany
    cases hany

/-- What a thread notes of its own operation is so. -/
theorem Tied.perform {t : Threads Memory Call Op.Ans} {o : Op} {a : o.Ans}
    {k : o.Ans → Prog Op.Ans Unit} (hsound : Sound t.shared) (h : Tied C t.shared n c note)
    (hallowed : (contract C c).Allowed note o) (hthread : t.threads[n]? = some (c, .act o k))
    (htime : InTime C t (.run n ())) (hperform : Channel.perform t.shared n o = some (s', a)) :
    Tied C s' n c ((contract C c).next note o a) := by
  simp only [InTime, hthread] at htime
  have hpassed : o.Quiet → t.shared.cleared = [] → Tied C s' n c { note with passed := true } := by
    intro hq hnone
    have hlate : n ∉ t.shared.late := fun hm => hsound.late n hm hnone
    have htouched : n ∉ t.shared.touched := fun hm => hsound.touched n hm hnone
    have hnow : Tied C t.shared n c { note with passed := true } :=
      ⟨h.owner, h.entered, h.session, fun _ => ⟨hlate, htouched, fun _ => hnone⟩, h.wiped⟩
    exact hnow.quiet hperform hq
  cases o with
  | begin =>
    cases hperform
    exact ⟨h.owner, h.entered, h.session, nofun, h.wiped⟩
  | enterMonitor =>
    obtain ⟨-, hperform⟩ := Option.ite_none_right_eq_some.mp hperform
    cases hperform
    exact ⟨fun _ => rfl, fun _ => htime, fun _ _ => nofun, nofun, h.wiped⟩
  | exitMonitor =>
    cases hperform
    exact ⟨nofun, nofun, nofun, fun hp => ⟨(h.passed hp).1, (h.passed hp).2.1, nofun⟩, h.wiped⟩
  | get f =>
    have htied : Tied C s' n c note := by
      cases hperform
      refine ⟨h.owner, h.entered, h.session, fun hp => ?_, h.wiped⟩
      obtain ⟨hlate, htouched, hcleared⟩ := h.passed hp
      refine ⟨hlate, ?_, hcleared⟩
      simp only [hcleared hallowed, List.not_mem_nil, if_false]
      exact htouched
    cases f with
    | sessionId =>
      cases hperform
      exact ⟨htied.owner, htied.entered, fun _ _ hread => Option.some.inj hread, htied.passed,
        htied.wiped⟩
    | _ => exact htied
  | clear f =>
    cases hperform
    have hout : ∀ hinside : note.inside = true, False := fun hinside =>
      Option.some_ne_none n ((h.owner hinside).symm.trans htime)
    exact ⟨fun hi => (hout hi).elim, fun hi => (hout hi).elim, fun hi => (hout hi).elim,
      fun hp => ⟨(h.passed hp).1, (h.passed hp).2.1, fun hi => (hout hi).elim⟩,
      fun _ => List.cons_ne_nil f t.shared.cleared⟩
  | isExhausted => exact hpassed trivial (h.in_time hsound hallowed.1 hallowed.2)
  | isNext sequence => exact hpassed trivial (h.in_time hsound hallowed.1 hallowed.2)
  | _ => exact h.quiet hperform trivial

/-- As long as `destroy` wipes while no call is in the monitor, and those that enter it
after that have been given what is refused anyway, no call that starts after `destroy`
returns a frame, and none returns a frame for which it has read a wiped field. -/
theorem returned_in_time {ch : SecureChannel} {t : Threads Memory Call Op.Ans}
    (h : (monitor C aes256GcmEncrypt aes256GcmDecrypt ch).system.ReachableWhen (InTime C) t) :
    ∀ r ∈ t.shared.frames, r.late = false ∧ r.wiped = false := by
  have hsound : Sound t.shared := by
    refine Machine.contract_invariant (K := contract C) (I := Sound) (R := Tied C) h ?_ ?_ ?_
    · rintro s rfl
      exact ⟨nofun, nofun, nofun, fun h => absurd rfl h, nofun⟩
    · rintro s c shared new hsound - hstart
      cases hstart
      refine ⟨hsound, fun _ _ _ h => h, fun n e he => ?_⟩
      rw [List.mem_singleton.mp he]
      exact ⟨{}, ⟨nofun, nofun, nofun, nofun, nofun⟩, (program_meets c {}).meets⟩
    · rintro t n c o k ⟨⟩ shared a new note hsound htied hallowed hthread htime hmonitor
      obtain ⟨⟨s', a'⟩, hperform, heq⟩ := Option.map_eq_some_iff.mp hmonitor
      cases heq
      refine ⟨hsound.perform htied hallowed hperform, trivial,
        htied.perform hsound hallowed hthread htime hperform, fun m u note hm hu => ?_, nofun⟩
      refine hu.kept (perform_kept hperform ?_ ?_ (.inl hm))
      · rintro f rfl
        simpa only [InTime, hthread] using htime
      · rintro rfl
        exact htied.owner hallowed
  exact hsound.frames

/-! ## A frame sealed under zeros -/

def sampleKeys : SecureChannel where
  sessionId := List.replicate 16 10
  clientToServerKey := List.replicate 32 1
  serverToClientKey := List.replicate 32 2
  clientNoncePrefix := [3, 3, 3, 3]
  serverNoncePrefix := [4, 4, 4, 4]

/-- A cipher that shows the key, and never refuses. -/
def sampleSeal : Encrypt := fun key _ plaintext _ => some ⟨plaintext, key.take 16⟩

def sampleOpen : Decrypt := fun _ _ ciphertext _ _ => some ciphertext

abbrev sampleMonitor : System (Threads Memory Call Op.Ans) (Threads.Action Call Unit) :=
  (monitor protoCodecs sampleSeal sampleOpen sampleKeys).system

/-- A thread makes that many steps. -/
def steps (n count : Nat) : List (Threads.Action Call Unit) := List.replicate count (.run n ())

/-- `send` has found the channel when `closeQuietly` destroys it, and encrypts after that. -/
def lateRun : List (Threads.Action Call Unit) :=
  [.start (.send 1005 [1, 2, 3]), .start .close] ++ steps 0 2 ++ steps 1 10 ++ steps 0 12

abbrev lateState : Threads Memory Call Op.Ans :=
  sampleMonitor.after { shared := { channel := sampleKeys } } lateRun

/-- The frame of that call, with the session and the key all zeros. -/
def zeroFrame : Frame :=
  ⟨DEF_PROT_APP_ENCRYPTED_FRAME, protoCodecs.encryptedFrame.serialize
    { version := APP_SECURITY_VERSION
      sessionId := List.replicate 16 0
      sequence := 1
      ciphertext := le32 1005 ++ [1, 2, 3]
      tag := List.replicate 16 0 }⟩

theorem sealed_after_destroy : sampleMonitor.Reachable lateState ∧
    ∃ r ∈ lateState.shared.frames, r = ⟨zeroFrame, true, true⟩ :=
  ⟨System.reachable_after ⟨rfl, rfl⟩ (by decide +kernel), by decide +kernel⟩

/-- An envelope of the session. -/
def sessionFrame : Frame :=
  ⟨DEF_PROT_APP_ENCRYPTED_FRAME, protoCodecs.encryptedFrame.serialize
    { version := APP_SECURITY_VERSION
      sessionId := List.replicate 16 10
      sequence := 1
      ciphertext := le32 1005 ++ [1, 2, 3]
      tag := List.replicate 16 0 }⟩

/-- A frame is sealed, then the channel is destroyed. The read loop, which has looked up
the channel before, and a security packet come too late. -/
def timelyRun : List (Threads.Action Call Unit) :=
  [.start (.send 1005 [1, 2, 3])] ++ steps 0 14 ++
    [.start .close, .start (.read sessionFrame)] ++ steps 2 1 ++ steps 1 10 ++ steps 2 5 ++
    [.start (.encrypt DEF_PROT_APP_CLIENT_HELLO.toBitVec [])] ++ steps 3 3

abbrev timelyState : Threads Memory Call Op.Ans :=
  sampleMonitor.after { shared := { channel := sampleKeys } } timelyRun

theorem returned_in_time_sample : timelyState.shared.destroyed = true ∧
    timelyState.shared.late = [3, 2] ∧ timelyState.shared.frames.length = 1 ∧
    ∀ r ∈ timelyState.shared.frames, r.late = false ∧ r.wiped = false := by
  refine ⟨by decide +kernel, by decide +kernel, by decide +kernel, ?_⟩
  have htime : sampleMonitor.Along (InTime protoCodecs)
      { shared := { channel := sampleKeys } } timelyRun := by
    decide +kernel
  exact returned_in_time (System.reachableWhen_after ⟨rfl, rfl⟩ htime (by decide +kernel))

end Channel
