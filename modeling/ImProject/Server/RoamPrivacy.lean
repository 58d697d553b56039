-- SUMMARY: What roaming shows a user depends on the user's own messages only, and lists each conversation once.
import ImProject.Server.RoamHandler

/-!
# What roaming shows

The queries of roaming select by conversation id. Messages are stored for pairs
of users with positive 32-bit ids, and on these the conversation id is injective;
so the rows of a conversation a user takes part in are rows of that user.
-/

open Library

/-- The ids of users: positive values of `int`. -/
def ValidUser (u : UserId) : Prop := 0 < u ∧ u < 2 ^ 31

instance (u : UserId) : Decidable (ValidUser u) := inferInstanceAs (Decidable (_ ∧ _))

namespace Database

/-- The messages `onChat` stores are sent by a user to a user. -/
def SavedForUsers (_ : Conn MessageTable) : MessageWrite → Prop
  | .save _ m _ => ValidUser m.senderId ∧ ValidUser m.receiverId
  | .mark _ => True

instance : ∀ c a, Decidable (SavedForUsers c a)
  | _, .save _ m _ => inferInstanceAs (Decidable (ValidUser m.senderId ∧ ValidUser m.receiverId))
  | _, .mark _ => isTrue trivial

end Database

namespace MessageTable

/-- The user sent or received the message. -/
def involves (u : UserId) (r : MessageRow) : Bool := r.senderId = u || r.receiverId = u

/-- The rows of a user, in row order. -/
def own (t : MessageTable) (u : UserId) : List MessageRow := t.rows.filter (involves u)

/-- Every row belongs to the conversation of its two users. -/
def Filed (t : MessageTable) : Prop :=
  ∀ r ∈ t.rows, ValidUser r.senderId ∧ ValidUser r.receiverId ∧
    r.conversationId = makeConversationId r.senderId r.receiverId

theorem Filed.markDelivered {t : MessageTable} (h : t.Filed) (ids : List String) :
    (Database.markDelivered t ids).Filed := by
  intro r' hr'
  obtain ⟨r, hr, rfl⟩ := Database.mem_markDelivered.mp hr'
  simpa using h r hr

/-- The conversation of an invalid id is the conversation 0, which has no rows. -/
theorem Filed.conversation_ne_zero {t : MessageTable} (h : t.Filed) {r : MessageRow}
    (hr : r ∈ t.rows) : r.conversationId ≠ 0 := by
  obtain ⟨hs, hrec, hid⟩ := h r hr
  have hmin : 0 < min r.senderId r.receiverId := lt_min hs.1 hrec.1
  have hmax : 0 < max r.senderId r.receiverId := lt_max_of_lt_left hs.1
  rw [hid, makeConversationId_eq hs.1 hrec.1 hs.2 hrec.2]
  exact ne_of_gt (add_pos (mul_pos hmin (by norm_num)) hmax)

/-- The rows of a conversation are those of its two users. -/
theorem Filed.users {t : MessageTable} (h : t.Filed) {u p : UserId} (hu : ValidUser u)
    (hp : p < 2 ^ 31) {r : MessageRow} (hr : r ∈ t.rows)
    (hconv : r.conversationId = makeConversationId u p) :
    (r.senderId = u ∧ r.receiverId = p) ∨ (r.senderId = p ∧ r.receiverId = u) := by
  obtain ⟨hs, hrec, hid⟩ := h r hr
  have hpos : 0 < p := by
    by_contra hneg
    exact h.conversation_ne_zero hr (hconv.trans (if_pos (.inr (not_lt.mp hneg))))
  exact makeConversationId_inj hs.1 hrec.1 hu.1 hpos hs.2 hrec.2 hu.2 hp (hid.symm.trans hconv)

/-- The rows of a conversation of two users are rows of both. -/
theorem Filed.involves {t : MessageTable} (h : t.Filed) {u p : UserId} (hu : ValidUser u)
    (hp : p < 2 ^ 31) {r : MessageRow} (hr : r ∈ t.rows)
    (hconv : r.conversationId = makeConversationId u p) : involves u r = true := by
  rcases h.users hu hp hr hconv with ⟨hsu, -⟩ | ⟨-, hru⟩
  · simp [MessageTable.involves, hsu]
  · simp [MessageTable.involves, hru]

end MessageTable

namespace Database

open MessageTable

theorem filed_of_reachable {c : Conn MessageTable}
    (h : messageWrites.ReachableWhen SavedForUsers c) :
    c.tables.Filed ∧ c.committed.Filed := by
  refine h.invariant (I := fun c => c.tables.Filed ∧ c.committed.Filed) ?_ ?_
  · rintro c rfl
    have hempty : MessageTable.empty.Filed := fun r hr => absurd hr (by simp)
    exact ⟨hempty, hempty⟩
  · rintro c a c' - ⟨htables, hcomm⟩ hvalid hstep
    cases a with
    | save f m delivered =>
      cases hstep
      have hsaved : (saveMessage c f m delivered).conn.tables.Filed := by
        have hcases := saveMessage_cases c f m delivered
        generalize saveMessage c f m delivered = saved at hcases ⊢
        cases hcases with
        | refused => exact htables
        | duplicate row c' _ _ heq => exact heq ▸ htables
        | inserted seq t _ hinsert =>
          intro r hr
          obtain ⟨-, -, hrows⟩ := insert?_eq_some hinsert
          dsimp only at hr
          rw [hrows] at hr
          rcases List.mem_append.mp hr with hr | hr
          · exact htables r hr
          · rw [List.mem_singleton.mp hr]
            exact ⟨hvalid.1, hvalid.2, rfl⟩
      refine ⟨hsaved, ?_⟩
      rcases committed_saveMessage c f m delivered with heq | heq
      · rw [heq]
        exact hcomm
      · rw [heq]
        exact hsaved
    | mark ids =>
      cases hstep
      refine ⟨htables.markDelivered ids, ?_⟩
      cases hb : c.backup with
      | none => simpa [Conn.committed, hb] using htables.markDelivered ids
      | some t => simpa [Conn.committed, hb] using hcomm

/-- `SELECT conversation_id, MAX(id)` over the rows of the user, one row for each
conversation. -/
def heads (t : MessageTable) (u : UserId) : List MessageRow :=
  (t.own u).filter fun r =>
    (t.own u).all fun r' => r'.conversationId ≠ r.conversationId || r'.id ≤ r.id

/-- What `roamConversations` may return: the heads by falling time. The query
leaves the order of rows of equal time open. -/
def RoamConversations (t : MessageTable) (u : UserId) (out : List MessageRow) : Prop :=
  out.Perm (heads t u) ∧ out.Pairwise fun r r' => r'.ts ≤ r.ts

end Database

namespace RoamHandler

/-- What `onConversations` may answer. -/
def OnConversations (t : MessageTable) (u : UserId) (convs : List ChatInfoRq) : Prop :=
  0 < u ∧ ∃ rows, Database.RoamConversations t u rows ∧
    convs = rows.map fun r => fillChatInfo r.toStoredMessage

end RoamHandler

/-! ## What a user's rows say -/

/-- What a row says, apart from its row id. -/
def MessageRow.withoutId (r : MessageRow) : MessageRow := { r with id := 0 }

/-- Lists of rows that say the same have the same values of what does not depend
on row ids. -/
private theorem map_filter_withoutId {β : Type*} {l l' : List MessageRow}
    (h : l.map MessageRow.withoutId = l'.map MessageRow.withoutId) (p : MessageRow → Bool)
    (hp : ∀ r, p r.withoutId = p r) (f : MessageRow → β) (hf : ∀ r, f r.withoutId = f r) :
    (l.filter p).map f = (l'.filter p).map f := by
  have hl : ∀ l : List MessageRow,
      (l.filter p).map f = ((l.map MessageRow.withoutId).filter p).map f := by
    intro l
    rw [List.filter_map, List.map_map]
    have hpc : p ∘ MessageRow.withoutId = p := funext hp
    have hfc : f ∘ MessageRow.withoutId = f := funext hf
    rw [hpc, hfc]
  rw [hl l, hl l', h]

namespace MessageTable

/-- The conversation of a user is among the user's rows. -/
theorem Filed.conversation_eq {t : MessageTable} (h : t.Filed) {u p : UserId} (hu : ValidUser u)
    (hp : p < 2 ^ 31) :
    t.conversation (makeConversationId u p) =
      (t.own u).filter (·.conversationId = makeConversationId u p) := by
  unfold conversation own
  rw [List.filter_filter]
  refine List.filter_congr fun r hr => ?_
  by_cases hc : r.conversationId = makeConversationId u p
  · simp [hc, h.involves hu hp hr hc]
  · simp [hc]

end MessageTable

namespace RoamHandler

open MessageTable Database

/-- The answer to a page request depends on the messages of the conversation only. -/
theorem onMessages_congr {t t' : MessageTable} (h : t.Numbered) (h' : t'.Numbered) {u : UserId}
    {rq : RoamMsgRq} (heq : t.messages (makeConversationId u rq.peerId) =
      t'.messages (makeConversationId u rq.peerId)) :
    onMessages t u rq = onMessages t' u rq := by
  unfold onMessages
  split
  · rfl
  · dsimp only
    have hrows := roamMessages_eq h u rq.peerId
      (if 0 < rq.beforeSeq then rq.beforeSeq else INT64_MAX) (pageSize rq.limit)
    have hrows' := roamMessages_eq h' u rq.peerId
      (if 0 < rq.beforeSeq then rq.beforeSeq else INT64_MAX) (pageSize rq.limit)
    rw [heq] at hrows
    generalize roamMessages t u rq.peerId _ _ = rows at hrows ⊢
    generalize roamMessages t' u rq.peerId _ _ = rows' at hrows' ⊢
    have hsame := hrows.trans hrows'.symm
    have hlen : rows.length = rows'.length := by simpa using congrArg List.length hsame
    have hmsgs : (rows.map fun r => fillChatInfo r.toStoredMessage) =
        rows'.map fun r => fillChatInfo r.toStoredMessage := by
      simpa [List.map_map, Function.comp_def] using congrArg (List.map fillChatInfo) hsame
    have hlast : (rows.getLast?.map (·.seq)) = rows'.getLast?.map (·.seq) := by
      have hmap : (rows.map (·.toStoredMessage)).getLast?.map (·.seq) =
          (rows'.map (·.toStoredMessage)).getLast?.map (·.seq) := by rw [hsame]
      rw [List.getLast?_map, List.getLast?_map, Option.map_map, Option.map_map] at hmap
      exact hmap
    rw [hlen, hmsgs, hlast]

end RoamHandler

namespace Database

open MessageTable

/-- The last row of each conversation, in row order. -/
private def lasts : List MessageRow → List MessageRow
  | [] => []
  | r :: rows =>
    if rows.any (·.conversationId = r.conversationId) then lasts rows else r :: lasts rows

private theorem filter_max_eq_lasts {l : List MessageRow} (h : l.Pairwise fun r r' => r.id < r'.id) :
    (l.filter fun r => l.all fun r' => r'.conversationId ≠ r.conversationId || r'.id ≤ r.id) =
      lasts l := by
  induction h with
  | nil => rfl
  | @cons r rows hlt _ ih =>
    have hrest : (rows.filter fun x =>
        (r :: rows).all fun r' => r'.conversationId ≠ x.conversationId || r'.id ≤ x.id) =
        rows.filter fun x =>
          rows.all fun r' => r'.conversationId ≠ x.conversationId || r'.id ≤ x.id := by
      refine List.filter_congr fun x hx => ?_
      have hle : decide (r.id ≤ x.id) = true := decide_eq_true (Nat.le_of_lt (hlt x hx))
      rw [List.all_cons, hle, Bool.or_true, Bool.true_and]
    rw [List.filter_cons, hrest, ih, lasts]
    by_cases hany : rows.any (·.conversationId = r.conversationId) = true
    · obtain ⟨x, hx, hconv⟩ := List.any_eq_true.mp hany
      have hnot : ¬ ((r :: rows).all fun r' =>
          r'.conversationId ≠ r.conversationId || r'.id ≤ r.id) = true := by
        intro hall
        have hx' := List.all_eq_true.mp hall x (List.mem_cons_of_mem r hx)
        simp only [decide_eq_true_eq] at hconv
        simp only [hconv, ne_eq, not_true_eq_false, decide_false, Bool.false_or,
          decide_eq_true_eq] at hx'
        exact absurd (hlt x hx) (not_lt.mpr hx')
      rw [if_neg hnot, if_pos hany]
    · have hall : ((r :: rows).all fun r' =>
          r'.conversationId ≠ r.conversationId || r'.id ≤ r.id) = true := by
        rw [List.all_cons, List.all_eq_true.mpr]
        · simp
        · intro x hx
          have hne : x.conversationId ≠ r.conversationId := fun hc =>
            hany (List.any_eq_true.mpr ⟨x, hx, decide_eq_true hc⟩)
          simp [hne]
      rw [if_pos hall, if_neg hany]

private theorem lasts_map_withoutId (l : List MessageRow) :
    (lasts l).map MessageRow.withoutId = lasts (l.map MessageRow.withoutId) := by
  induction l with
  | nil => rfl
  | cons r rows ih =>
    have hany : ((rows.map MessageRow.withoutId).any
        (·.conversationId = r.withoutId.conversationId)) =
        rows.any (·.conversationId = r.conversationId) := by
      rw [List.any_map]
      rfl
    rw [List.map_cons, lasts, lasts, hany]
    split
    · exact ih
    · rw [List.map_cons, ih]

theorem heads_withoutId {t t' : MessageTable} {u : UserId}
    (h : (t.own u).map MessageRow.withoutId = (t'.own u).map MessageRow.withoutId) :
    (heads t u).map MessageRow.withoutId = (heads t' u).map MessageRow.withoutId := by
  have hsorted : ∀ t : MessageTable, (t.own u).Pairwise fun r r' => r.id < r'.id :=
    fun t => (List.pairwise_map.mp t.id_increasing).filter _
  unfold heads
  rw [filter_max_eq_lasts (hsorted t), filter_max_eq_lasts (hsorted t'), lasts_map_withoutId,
    lasts_map_withoutId, h]

private theorem mem_map_lasts {l : List MessageRow} {conv : Int} :
    conv ∈ (lasts l).map (·.conversationId) ↔ conv ∈ l.map (·.conversationId) := by
  induction l with
  | nil => rfl
  | cons r rows ih =>
    rw [lasts]
    split
    · rename_i hany
      obtain ⟨x, hx, hconv⟩ := List.any_eq_true.mp hany
      rw [ih, List.map_cons, List.mem_cons]
      refine ⟨.inr, fun h => h.elim (fun heq => ?_) id⟩
      rw [heq, ← of_decide_eq_true hconv]
      exact List.mem_map_of_mem hx
    · rw [List.map_cons, List.mem_cons, List.map_cons, List.mem_cons, ih]

/-- The list of conversations has the conversations of the user, each once and
with its newest message. -/
theorem conversations_listed {t : MessageTable} (hfiled : t.Filed) (hnum : t.Numbered)
    {u : UserId} {out : List MessageRow} (hout : RoamConversations t u out) :
    (out.map (·.conversationId)).Nodup ∧
      (∀ conv, conv ∈ out.map (·.conversationId) ↔ ∃ r ∈ t.own u, r.conversationId = conv) ∧
      ∀ r ∈ out, involves u r = true ∧
        ∀ r' ∈ t.rows, r'.conversationId = r.conversationId → r'.seq ≤ r.seq := by
  have hmax : ∀ r ∈ heads t u, r ∈ t.rows ∧ involves u r = true ∧
      ∀ r' ∈ t.own u, r'.conversationId = r.conversationId → r'.id ≤ r.id := by
    intro r hr
    obtain ⟨hown, hall⟩ := List.mem_filter.mp hr
    obtain ⟨hmem, hinv⟩ := List.mem_filter.mp hown
    refine ⟨hmem, hinv, fun r' hr' hconv => ?_⟩
    simpa [hconv] using List.all_eq_true.mp hall r' hr'
  have hmemOwn : ∀ r ∈ heads t u, r ∈ t.own u := fun r hr => (List.mem_filter.mp hr).1
  refine ⟨?_, fun conv => ?_, fun r hr => ?_⟩
  · have hrows : t.rows.Nodup := List.Nodup.of_map _ t.msgId_unique
    have hnodup : (heads t u).Nodup := (hrows.filter _).filter _
    rw [(hout.1.map _).nodup_iff]
    refine List.Nodup.map_on (fun r hr r' hr' hconv => ?_) hnodup
    have hle := (hmax r' hr').2.2 r (hmemOwn r hr) hconv
    have hge := (hmax r hr).2.2 r' (hmemOwn r' hr') hconv.symm
    have hid : (t.rows.map (·.id)).Nodup := t.id_increasing.imp Nat.ne_of_lt
    exact List.inj_on_of_nodup_map hid (hmax r hr).1 (hmax r' hr').1 (le_antisymm hle hge)
  · have hsorted : (t.own u).Pairwise fun r r' => r.id < r'.id :=
      (List.pairwise_map.mp t.id_increasing).filter _
    rw [(hout.1.map _).mem_iff, heads, filter_max_eq_lasts hsorted, mem_map_lasts, List.mem_map]
  · have hr := hout.1.mem_iff.mp hr
    obtain ⟨hmem, hinv, hlast⟩ := hmax r hr
    refine ⟨hinv, fun r' hr' hconv => not_lt.mp fun hlt => ?_⟩
    have hlt' := (id_lt_iff_seq_lt hnum hmem hr' hconv.symm).mpr hlt
    -- the two rows are of the same pair of users
    have hown : r' ∈ t.own u := by
      refine List.mem_filter.mpr ⟨hr', ?_⟩
      obtain ⟨hs, hrec, hid⟩ := hfiled r hmem
      obtain ⟨hs', hrec', hid'⟩ := hfiled r' hr'
      have hpair := makeConversationId_inj hs'.1 hrec'.1 hs.1 hrec.1 hs'.2 hrec'.2 hs.2 hrec.2
        (hid'.symm.trans (hconv.trans hid))
      simp only [involves, Bool.or_eq_true, decide_eq_true_eq] at hinv ⊢
      rcases hpair with ⟨h₁, h₂⟩ | ⟨h₁, h₂⟩
      · rwa [h₁, h₂]
      · rw [h₁, h₂]
        exact hinv.symm
    exact absurd (hlast r' hown hconv) (not_le.mpr hlt')

end Database

namespace RoamHandler

open MessageTable Database

/-- What roaming answers a user is the same for any two reachable databases that
agree on the user's rows; every row of an answer is one of these, and the list of
conversations has each conversation of the user once, with its newest message. -/
theorem roaming_shows_own {c c' : Conn MessageTable}
    (h : messageWrites.ReachableWhen SavedForUsers c)
    (h' : messageWrites.ReachableWhen SavedForUsers c') {u : UserId} (hu : ValidUser u)
    (hsame : (c.committed.own u).map MessageRow.withoutId =
      (c'.committed.own u).map MessageRow.withoutId) :
    (∀ rq, rq.peerId < 2 ^ 31 → onMessages c.committed u rq = onMessages c'.committed u rq) ∧
    (∀ convs convs', OnConversations c.committed u convs → OnConversations c'.committed u convs' →
      convs.Perm convs' ∧ convs.map (·.ts) = convs'.map (·.ts)) ∧
    (∀ rq rs, rq.peerId < 2 ^ 31 → onMessages c.committed u rq = some rs →
      ∀ m ∈ rs.msgs, m.myid = u ∨ m.friid = u) ∧
    ∀ out, RoamConversations c.committed u out →
      (out.map (·.conversationId)).Nodup ∧
      (∀ conv, conv ∈ out.map (·.conversationId) ↔
        ∃ r ∈ c.committed.own u, r.conversationId = conv) ∧
      ∀ r ∈ out, (r.senderId = u ∨ r.receiverId = u) ∧
        ∀ r' ∈ c.committed.rows, r'.conversationId = r.conversationId → r'.seq ≤ r.seq := by
  have hfiled := (filed_of_reachable h).2
  have hfiled' := (filed_of_reachable h').2
  have hnum := (numbered_of_reachable h.reachable).2
  have hnum' := (numbered_of_reachable h'.reachable).2
  refine ⟨fun rq hpeer => ?_, ?_, fun rq rs hpeer hrs m hm => ?_, fun out hout => ?_⟩
  · refine onMessages_congr hnum hnum' ?_
    unfold messages
    rw [hfiled.conversation_eq hu hpeer, hfiled'.conversation_eq hu hpeer]
    exact map_filter_withoutId hsame _ (fun _ => rfl) _ (fun _ => rfl)
  · rintro convs convs' ⟨-, rows, ⟨hperm, hsorted⟩, rfl⟩ ⟨-, rows', ⟨hperm', hsorted'⟩, rfl⟩
    have hheads := heads_withoutId hsame
    have hmap : ∀ {β : Type} (f : MessageRow → β), (∀ r, f r.withoutId = f r) →
        (rows.map f).Perm (rows'.map f) := by
      intro β f hf
      have heq : (heads c.committed u).map f = (heads c'.committed u).map f := by
        simpa [List.map_map, Function.comp_def, hf] using congrArg (List.map f) hheads
      exact (hperm.map f).trans (heq ▸ (hperm'.map f).symm)
    refine ⟨hmap _ fun _ => rfl, ?_⟩
    have hts := hmap (·.ts) fun _ => rfl
    have hts' := hts.eq_of_pairwise (fun a b _ _ hab hba => le_antisymm hba hab)
      (List.pairwise_map.mpr hsorted) (List.pairwise_map.mpr hsorted')
    simpa [List.map_map, Function.comp_def] using hts'
  · unfold onMessages at hrs
    rw [if_neg (not_le.mpr hu.1)] at hrs
    cases hrs
    obtain ⟨r, hr, rfl⟩ := List.mem_map.mp hm
    have hmem := (List.mem_insertionSort _).mp (List.mem_of_mem_take hr)
    obtain ⟨hrow, hconv⟩ := List.mem_filter.mp (List.mem_filter.mp hmem).1
    have hinv := hfiled.involves hu hpeer hrow (of_decide_eq_true hconv)
    simpa [involves] using hinv
  · obtain ⟨hnodup, hconvs, hrows⟩ := conversations_listed hfiled hnum hout
    refine ⟨hnodup, hconvs, fun r hr => ⟨?_, (hrows r hr).2⟩⟩
    simpa [involves] using (hrows r hr).1

/-- A message of user 1, alone and behind one between other users. -/
theorem sampleMessages_shown :
    ∃ c c', messageWrites.ReachableWhen SavedForUsers c ∧
      messageWrites.ReachableWhen SavedForUsers c' ∧ c.committed ≠ c'.committed ∧
      ∀ rq, rq.peerId < 2 ^ 31 → onMessages c.committed 1 rq = onMessages c'.committed 1 rq := by
  let other : StoredMessage := { msgId := "m0", senderId := 3, receiverId := 2 }
  let m : StoredMessage := { msgId := "m1", senderId := 1, receiverId := 2 }
  let c := (saveMessage { tables := .empty } {} m false).conn
  let c' := (saveMessage (saveMessage { tables := .empty } {} other false).conn {} m false).conn
  have hvalid : ValidUser 3 ∧ ValidUser 2 := by decide
  have hvalid' : ValidUser 1 ∧ ValidUser 2 := by decide
  have hempty : messageWrites.ReachableWhen SavedForUsers { tables := .empty } := .init rfl
  have hc : messageWrites.ReachableWhen SavedForUsers c :=
    hempty.step (a := MessageWrite.save {} m false) hvalid' rfl
  have hother : messageWrites.ReachableWhen SavedForUsers
      (saveMessage { tables := .empty } {} other false).conn :=
    hempty.step (a := MessageWrite.save {} other false) hvalid rfl
  have hc' : messageWrites.ReachableWhen SavedForUsers c' :=
    hother.step (a := MessageWrite.save {} m false) hvalid' rfl
  have hshown := roaming_shows_own hc hc' (u := 1) (by decide) (by decide)
  exact ⟨c, c', hc, hc', by decide, hshown.1⟩

end RoamHandler
