-- SUMMARY: How the token tables develop: numbered exchanges, permanent revocation, access tokens that do not come back.
import ImProject.Auth.Refresh

/-!
# The token tables over time

`HistoryInv` says how the two tables fit together in every reachable state. The
statements about two moments of a run follow from what one step keeps:
`SameLogin` for a row, and `Tied` and `Dead` for an access token.
-/

open Library

namespace TokenService

variable (tokenHash : String → String)

/-- The history rows of a family. -/
def familyHistory (t : AuthTables) (familyId : String) : List RefreshHistoryRow :=
  t.history.filter (·.familyId = familyId)

/-- The numbers from 1 to `generation - 1`. -/
def generationsBefore (generation : Int) : List Int :=
  (List.range (generation - 1).toNat).map fun i : Nat => (i : Int) + 1

structure HistoryInv (s : State) : Prop where
  access_drawn : ∀ r ∈ s.tables.sessions, ∃ t ∈ s.drawn, r.accessHash = tokenHash t
  /-- A spent token belongs to a family that has a session. -/
  spent_family : ∀ h ∈ s.tables.history, ∃ r ∈ s.tables.sessions, h.familyId = r.familyId
  generation_pos : ∀ r ∈ s.tables.sessions, 1 ≤ r.generation
  numbered : ∀ r ∈ s.tables.sessions,
    (familyHistory s.tables r.familyId).map (·.generation) = generationsBefore r.generation

variable {tokenHash} {s s' : State} {a : Action} {ans : Option Answer}

/-! ## The history of a family -/

theorem generationsBefore_add_one {g : Int} (h : 1 ≤ g) :
    generationsBefore (g + 1) = generationsBefore g ++ [g] := by
  have hrange : (g + 1 - 1).toNat = (g - 1).toNat + 1 := by omega
  have hlast : ((g - 1).toNat : Int) + 1 = g := by omega
  rw [generationsBefore, hrange, List.range_succ, List.map_append, List.map_singleton, hlast]
  rfl

theorem familyHistory_append {t t' : AuthTables} {e : RefreshHistoryRow}
    (h : t'.history = t.history ++ [e]) (familyId : String) :
    familyHistory t' familyId =
      familyHistory t familyId ++ if e.familyId = familyId then [e] else [] := by
  rw [familyHistory, h, List.filter_append]
  by_cases he : e.familyId = familyId
  · simp [familyHistory, he]
  · simp [familyHistory, he]

namespace HistoryInv

theorem access_drawn_step (hs : HistoryInv tokenHash s) (h : TablesStep tokenHash s s') :
    ∀ r ∈ s'.tables.sessions, ∃ t ∈ s'.drawn, r.accessHash = tokenHash t := by
  have hold : ∀ r ∈ s.tables.sessions, ∀ new, s'.drawn = s.drawn ++ new →
      ∃ t ∈ s'.drawn, r.accessHash = tokenHash t := by
    intro r hr new hd
    obtain ⟨t, ht, heq⟩ := hs.access_drawn r hr
    exact ⟨t, hd ▸ List.mem_append_left _ ht, heq⟩
  intro r hr
  cases h with
  | quiet new _ hd hrev =>
    obtain ⟨r₀, hr₀, heq⟩ := hrev.mem hr
    rw [heq]
    exact hold r₀ hr₀ new hd
  | issued userId deviceId sessionId familyId accessToken refreshToken _ hd hsess =>
    rw [hsess, List.mem_append, List.mem_singleton] at hr
    rcases hr with hr | rfl
    · exact hold r hr _ hd
    · exact ⟨accessToken, hd ▸ List.mem_append_right _ (by simp), rfl⟩
  | rotated c old r₀ accessToken refreshToken _ _ hd _ _ _ _ hrows =>
    rcases (hrows r).mp hr with rfl | ⟨hr, -⟩
    · exact ⟨accessToken, hd ▸ List.mem_append_right _ (by simp), rfl⟩
    · exact hold r hr _ hd

theorem spent_family_step (hs : HistoryInv tokenHash s) (h : TablesStep tokenHash s s')
    (hready : ∀ c old, s.running = some (c, .rotate old) → RotateReady s c old) :
    ∀ h ∈ s'.tables.history, ∃ r ∈ s'.tables.sessions, h.familyId = r.familyId := by
  have hkept : ∀ r ∈ s.tables.sessions, ∃ r' ∈ s'.tables.sessions, r.familyId = r'.familyId := by
    intro r hr
    obtain ⟨r', hr', hsame⟩ := h.sameLogin r hr
    exact ⟨r', hr', hsame.familyId.symm⟩
  have hold : ∀ e ∈ s.tables.history, ∃ r ∈ s'.tables.sessions, e.familyId = r.familyId := by
    intro e he
    obtain ⟨r, hr, heq⟩ := hs.spent_family e he
    obtain ⟨r', hr', heq'⟩ := hkept r hr
    exact ⟨r', hr', heq.trans heq'⟩
  intro e he
  cases h with
  | quiet new _ _ hrev => exact hold e (hrev.1 ▸ he)
  | issued _ _ _ _ _ _ _ _ _ hhist => exact hold e (hhist ▸ he)
  | rotated c old r accessToken refreshToken hrun _ _ _ _ _ _ _ hhist =>
    rw [hhist, List.mem_append, List.mem_singleton] at he
    rcases he with he | rfl
    · exact hold e he
    · obtain ⟨r₀, hr₀, -, hfam, -⟩ := hready c old hrun
      obtain ⟨r', hr', heq⟩ := hkept r₀ hr₀
      exact ⟨r', hr', hfam.symm.trans heq⟩

theorem generation_pos_step (hs : HistoryInv tokenHash s) (h : TablesStep tokenHash s s') :
    ∀ r ∈ s'.tables.sessions, 1 ≤ r.generation := by
  intro r hr
  cases h with
  | quiet new _ _ hrev =>
    obtain ⟨r₀, hr₀, heq⟩ := hrev.mem hr
    rw [heq]
    exact hs.generation_pos r₀ hr₀
  | issued _ _ _ _ _ _ _ _ hsess =>
    rw [hsess, List.mem_append, List.mem_singleton] at hr
    rcases hr with hr | rfl
    · exact hs.generation_pos r hr
    · exact le_refl _
  | rotated _ _ r₀ _ _ _ _ _ hr₀ _ _ _ hrows =>
    rcases (hrows r).mp hr with rfl | ⟨hr, -⟩
    · exact Int.le_add_one (hs.generation_pos r₀ hr₀)
    · exact hs.generation_pos r hr

theorem numbered_step (ht : TablesInv tokenHash s) (hs : HistoryInv tokenHash s)
    (h : TablesStep tokenHash s s')
    (hready : ∀ c old, s.running = some (c, .rotate old) → RotateReady s c old) :
    ∀ r ∈ s'.tables.sessions,
      (familyHistory s'.tables r.familyId).map (·.generation) = generationsBefore r.generation := by
  intro r hr
  cases h with
  | quiet new _ _ hrev =>
    obtain ⟨r₀, hr₀, heq⟩ := hrev.mem hr
    rw [heq, familyHistory, hrev.1]
    exact hs.numbered r₀ hr₀
  | issued userId deviceId sessionId familyId accessToken refreshToken hfresh _ hsess hhist =>
    rw [familyHistory, hhist]
    rw [hsess, List.mem_append, List.mem_singleton] at hr
    rcases hr with hr | rfl
    · exact hs.numbered r hr
    · -- nothing of a family is in the history before it has been drawn
      have hnone : s.tables.history.filter (·.familyId = familyId) = [] := by
        refine List.filter_eq_nil_iff.mpr fun e he heq => ?_
        obtain ⟨r, hr, hfam⟩ := hs.spent_family e he
        have hdrawn := ht.family_drawn r hr
        rw [← hfam, of_decide_eq_true heq] at hdrawn
        exact (hfresh.2 familyId (by simp)).2 hdrawn
      exact congrArg (List.map (·.generation)) hnone
  | rotated c old r₀ accessToken refreshToken hrun _ _ hr₀ hid _ hgen hrows hhist =>
    obtain ⟨r₁, hr₁, hid₁, hfam, -⟩ := hready c old hrun
    cases s.tables.session_unique hr₁ hr₀ (hid₁.trans hid.symm)
    rw [familyHistory_append hhist]
    rcases (hrows r).mp hr with rfl | ⟨hr, hne⟩
    · have heq : old.familyId =
          (exchangedRow tokenHash r₀ (nextPair c.now old accessToken refreshToken)).familyId :=
        hfam.symm
      rw [if_pos heq, List.map_append, List.map_singleton]
      refine Eq.trans ?_ (generationsBefore_add_one (hs.generation_pos r₀ hr₀)).symm
      rw [← hs.numbered r₀ hr₀, hgen]
      rfl
    · have hother : old.familyId ≠ r.familyId := fun heq =>
        hne (ht.family_unique r hr r₀ hr₀ (hfam.trans heq).symm)
      rw [if_neg hother, List.append_nil]
      exact hs.numbered r hr

theorem step (ht : TablesInv tokenHash s) (hs : HistoryInv tokenHash s)
    (h : TablesStep tokenHash s s')
    (hready : ∀ c old, s.running = some (c, .rotate old) → RotateReady s c old) :
    HistoryInv tokenHash s' where
  access_drawn := hs.access_drawn_step h
  spent_family := hs.spent_family_step h hready
  generation_pos := hs.generation_pos_step h
  numbered := hs.numbered_step ht h hready

theorem init (clock : Int) : HistoryInv tokenHash (initial clock) := by
  constructor <;> simp [initial, AuthTables.empty]

end HistoryInv

theorem tablesStep_of_step (h : (system tokenHash).step s a = some s') :
    TablesStep tokenHash s s' := by
  obtain ⟨⟨t, ans⟩, hans, rfl⟩ := Option.map_eq_some_iff.mp h
  exact (step_cases hans).tablesStep

theorem clock_le_of_step (h : (system tokenHash).step s a = some s') : s.clock ≤ s'.clock := by
  obtain ⟨⟨t, ans⟩, hans, rfl⟩ := Option.map_eq_some_iff.mp h
  exact (step_cases hans).clock_le

theorem historyInv (hinj : Function.Injective tokenHash) (h : (system tokenHash).Reachable s) :
    HistoryInv tokenHash s := by
  induction h with
  | init hi =>
    rw [hi]
    exact .init _
  | step hr _ hstep ih =>
    obtain ⟨htables, hcalls⟩ := tablesInv_and_callsInv hinj hr
    exact ih.step htables (tablesStep_of_step hstep) fun c old hrun =>
      (hcalls.running c _ hrun).2.2

/-! ## One row over time -/

theorem SameLogin.trans {r r' r'' : AuthSessionRecord} (h : SameLogin r r')
    (h' : SameLogin r' r'') : SameLogin r r'' :=
  ⟨h'.sessionId.trans h.sessionId, h'.familyId.trans h.familyId, h'.userId.trans h.userId,
    h'.deviceId.trans h.deviceId, fun hrev => h'.revoked (h.revoked hrev)⟩

/-- A login stays in the table, and a revoked one stays revoked. -/
theorem sameLogin_of_run {as : List Action} (h : (system tokenHash).Reachable s)
    (hrun : (system tokenHash).run s as = some s') {r : AuthSessionRecord}
    (hr : r ∈ s.tables.sessions) : ∃ r' ∈ s'.tables.sessions, SameLogin r r' := by
  refine System.Reachable.run_invariant h
    (I := fun s' => ∃ r' ∈ s'.tables.sessions, SameLogin r r') ?_ ⟨r, hr, .refl r⟩ hrun
  rintro t a t' - ⟨r', hr', hsame⟩ hstep
  obtain ⟨r'', hr'', hsame'⟩ := (tablesStep_of_step hstep).sameLogin r' hr'
  exact ⟨r'', hr'', hsame.trans hsame'⟩

/-! ## One access token over time -/

variable (tokenHash)

/-- The access token has been drawn, and it can only be the one of the given
session on the given device. -/
structure Tied (token sessionId deviceId : String) (s : State) : Prop where
  drawn : token ∈ s.drawn
  rows : ∀ r ∈ s.tables.sessions, r.accessHash = tokenHash token →
    r.deviceId = deviceId ∧ (sessionId = "" ∨ r.sessionId = sessionId)

/-- The access token has been drawn, and a row that still has it is revoked or
its access has expired. -/
structure Dead (token : String) (s : State) : Prop where
  drawn : token ∈ s.drawn
  rows : ∀ r ∈ s.tables.sessions, r.accessHash = tokenHash token →
    r.revoked = true ∨ r.accessExpiresAt ≤ s.clock

variable {tokenHash} {token sessionId deviceId : String}

theorem TablesStep.drawn_mono (h : TablesStep tokenHash s s') : ∀ t ∈ s.drawn, t ∈ s'.drawn := by
  intro t ht
  cases h with
  | quiet new _ hd => exact hd ▸ List.mem_append_left _ ht
  | issued _ _ _ _ _ _ _ hd => exact hd ▸ List.mem_append_left _ ht
  | rotated _ _ _ _ _ _ _ hd => exact hd ▸ List.mem_append_left _ ht

/-- A row with an access token that had been drawn before the step is a row from
before the step, up to its flag. -/
theorem TablesStep.mem_of_drawn (hinj : Function.Injective tokenHash)
    (h : TablesStep tokenHash s s') (hdrawn : token ∈ s.drawn) {r' : AuthSessionRecord}
    (hr' : r' ∈ s'.tables.sessions) (hhash : r'.accessHash = tokenHash token) :
    ∃ r ∈ s.tables.sessions, ∃ b, (r.revoked = true → b = true) ∧
      r' = { r with revoked := b } := by
  have hnew : ∀ new, Fresh s new → ∀ t ∈ new, tokenHash t ≠ tokenHash token := by
    intro new hfresh t ht heq
    exact (hfresh.2 t ht).2 (hinj heq ▸ hdrawn)
  cases h with
  | quiet new _ _ hrev =>
    obtain ⟨-, f, hf⟩ := hrev
    obtain ⟨r, hr, rfl⟩ := (hf r').mp hr'
    exact ⟨r, hr, _, fun hb => by simp [hb], rfl⟩
  | issued userId deviceId sessionId familyId accessToken refreshToken hfresh _ hsess =>
    rw [hsess, List.mem_append, List.mem_singleton] at hr'
    rcases hr' with hr' | rfl
    · exact ⟨r', hr', _, id, rfl⟩
    · exact absurd hhash (hnew _ hfresh accessToken (by simp))
  | rotated c old r₀ accessToken refreshToken _ hfresh _ _ _ _ _ hrows =>
    rcases (hrows r').mp hr' with rfl | ⟨hr', -⟩
    · exact absurd hhash (hnew _ hfresh accessToken (by simp))
    · exact ⟨r', hr', _, id, rfl⟩

theorem Tied.step (hinj : Function.Injective tokenHash)
    (ht : Tied tokenHash token sessionId deviceId s) (h : TablesStep tokenHash s s') :
    Tied tokenHash token sessionId deviceId s' := by
  refine ⟨h.drawn_mono _ ht.drawn, fun r' hr' hhash => ?_⟩
  obtain ⟨r, hr, b, -, rfl⟩ := h.mem_of_drawn hinj ht.drawn hr' hhash
  exact ht.rows r hr hhash

theorem Dead.step (hinj : Function.Injective tokenHash) (hd : Dead tokenHash token s)
    (h : TablesStep tokenHash s s') (hclock : s.clock ≤ s'.clock) : Dead tokenHash token s' := by
  refine ⟨h.drawn_mono _ hd.drawn, fun r' hr' hhash => ?_⟩
  obtain ⟨r, hr, b, hb, rfl⟩ := h.mem_of_drawn hinj hd.drawn hr' hhash
  rcases hd.rows r hr hhash with hrev | hexp
  · exact .inl (hb hrev)
  · exact .inr (hexp.trans hclock)

/-- A token that validates is tied to the session and the device it validates for. -/
theorem tied_of_validateAccess (hinj : Function.Injective tokenHash) (hs : HistoryInv tokenHash s)
    (h : (validateAccess tokenHash s.tables s.clock token sessionId deviceId).isSome = true) :
    Tied tokenHash token sessionId deviceId s := by
  obtain ⟨-, -, r, hr, hhash, -, -, hdev, hsid⟩ := isSome_validateAccess.mp h
  obtain ⟨t, ht, heq⟩ := hs.access_drawn r hr
  refine ⟨hinj (hhash.symm.trans heq) ▸ ht, fun r' hr' hhash' => ?_⟩
  rw [s.tables.access_unique hr' hr (hhash'.trans hhash.symm)]
  exact ⟨hdev, hsid⟩

theorem Tied.dead (ht : Tied tokenHash token sessionId deviceId s) (htoken : token ≠ "")
    (hdevice : deviceId ≠ "")
    (h : validateAccess tokenHash s.tables s.clock token sessionId deviceId = none) :
    Dead tokenHash token s := by
  refine ⟨ht.drawn, fun r hr hhash => ?_⟩
  by_contra hlive
  simp only [not_or, Bool.not_eq_true, not_le] at hlive
  obtain ⟨hdev, hsid⟩ := ht.rows r hr hhash
  have hsome := isSome_validateAccess.mpr
    ⟨htoken, hdevice, r, hr, hhash, hlive.1, hlive.2, hdev, hsid⟩
  rw [h] at hsome
  cases hsome

theorem Dead.validateAccess (hd : Dead tokenHash token s) (sessionId deviceId : String) :
    validateAccess tokenHash s.tables s.clock token sessionId deviceId = none := by
  refine Option.not_isSome_iff_eq_none.mp fun hsome => ?_
  obtain ⟨-, -, r, hr, hhash, hrev, hexp, -⟩ := isSome_validateAccess.mp hsome
  rcases hd.rows r hr hhash with hrev' | hexp'
  · exact Bool.false_ne_true (hrev.symm.trans hrev')
  · exact not_le.mpr hexp hexp'

theorem validateAccess_stays_none (hinj : Function.Injective tokenHash) {s₁ s₂ : State}
    {as₁ as₂ : List Action} (h : (system tokenHash).Reachable s)
    (hvalid : (validateAccess tokenHash s.tables s.clock token sessionId deviceId).isSome = true)
    (hrun₁ : (system tokenHash).run s as₁ = some s₁)
    (hnone : validateAccess tokenHash s₁.tables s₁.clock token sessionId deviceId = none)
    (hrun₂ : (system tokenHash).run s₁ as₂ = some s₂) (sessionId' deviceId' : String) :
    validateAccess tokenHash s₂.tables s₂.clock token sessionId' deviceId' = none := by
  obtain ⟨htoken, hdevice, -⟩ := isSome_validateAccess.mp hvalid
  have htied : Tied tokenHash token sessionId deviceId s₁ :=
    h.run_invariant (fun _ _ _ _ ht hstep => ht.step hinj (tablesStep_of_step hstep))
      (tied_of_validateAccess hinj (historyInv hinj h) hvalid) hrun₁
  have hreach₁ := h.run (System.along_true s as₁) hrun₁
  have hdead : Dead tokenHash token s₂ :=
    System.Reachable.run_invariant hreach₁
      (fun _ _ _ _ hd hstep =>
        hd.step hinj (tablesStep_of_step hstep) (clock_le_of_step hstep))
      (htied.dead htoken hdevice hnone) hrun₂
  exact hdead.validateAccess sessionId' deviceId'

/-! ## The tables -/

/-- An exchange that reports failure has changed nothing. -/
theorem rotateRefreshToken_false {t : AuthTables} {f : Database.RotateFaults} {now : Int}
    {old : AuthSessionRecord} {oldHash newAccess : String} {accessExp : Int}
    {newRefresh : String} {refreshExp : Int}
    (h : (Database.rotateRefreshToken { tables := t } f now old oldHash newAccess accessExp
      newRefresh refreshExp).2 = false) :
    (Database.rotateRefreshToken { tables := t } f now old oldHash newAccess accessExp newRefresh
      refreshExp).1 = { tables := t } := by
  have hcases := Database.rotateRefreshToken_cases t f now old oldHash newAccess accessExp
    newRefresh refreshExp
  generalize Database.rotateRefreshToken _ _ _ _ _ _ _ _ _ = result at h hcases
  cases hcases with
  | refused => rfl
  | rotated => cases h

/-- In every reachable state the history of a family is numbered from 1 up to
the generation of its session, and no current token is in the history; a revoked
session stays revoked; a failed exchange changes nothing; and an access token
that has stopped validating never validates again. -/
theorem tokenTables_invariant (hinj : Function.Injective tokenHash)
    (h : (system tokenHash).Reachable s) :
    (∀ r ∈ s.tables.sessions, 1 ≤ r.generation ∧
      (familyHistory s.tables r.familyId).map (·.generation) = generationsBefore r.generation) ∧
    (∀ r ∈ s.tables.sessions, ∀ e ∈ s.tables.history, r.refreshHash ≠ e.tokenHash) ∧
    (∀ as s', (system tokenHash).run s as = some s' → ∀ r ∈ s.tables.sessions,
      ∃ r' ∈ s'.tables.sessions, r'.sessionId = r.sessionId ∧
        (r.revoked = true → r'.revoked = true)) ∧
    (∀ f now old oldHash newAccess accessExp newRefresh refreshExp,
      (Database.rotateRefreshToken { tables := s.tables } f now old oldHash newAccess accessExp
        newRefresh refreshExp).2 = false →
      (Database.rotateRefreshToken { tables := s.tables } f now old oldHash newAccess accessExp
        newRefresh refreshExp).1 = { tables := s.tables }) ∧
    (∀ token sessionId deviceId as₁ s₁ as₂ s₂,
      (validateAccess tokenHash s.tables s.clock token sessionId deviceId).isSome = true →
      (system tokenHash).run s as₁ = some s₁ →
      validateAccess tokenHash s₁.tables s₁.clock token sessionId deviceId = none →
      (system tokenHash).run s₁ as₂ = some s₂ → ∀ sessionId' deviceId',
        validateAccess tokenHash s₂.tables s₂.clock token sessionId' deviceId' = none) := by
  have hhist := historyInv hinj h
  have htables := (tablesInv_and_callsInv hinj h).1
  refine ⟨fun r hr => ⟨hhist.generation_pos r hr, hhist.numbered r hr⟩, htables.not_current,
    ?_, fun _ _ _ _ _ _ _ _ hfalse => rotateRefreshToken_false hfalse, ?_⟩
  · intro as s' hrun r hr
    obtain ⟨r', hr', hsame⟩ := sameLogin_of_run h hrun hr
    exact ⟨r', hr', hsame.sessionId, hsame.revoked⟩
  · intro token sessionId deviceId as₁ s₁ as₂ s₂ hvalid hrun₁ hnone hrun₂
    exact validateAccess_stays_none hinj h hvalid hrun₁ hnone hrun₂

theorem sampleReturned_numbered :
    (sampleRun sampleReturned).tables.sessions.map (·.generation) = [2] ∧
    ∀ r ∈ (sampleRun sampleReturned).tables.sessions, 1 ≤ r.generation ∧
      (familyHistory (sampleRun sampleReturned).tables r.familyId).map (·.generation) =
        generationsBefore r.generation :=
  ⟨by decide +kernel,
    (tokenTables_invariant sampleHash_injective (reachable_sampleRun (by decide +kernel))).1⟩

end TokenService
