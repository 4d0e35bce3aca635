import Mathlib.Data.List.Chain
import SmartTest.Asset.Repository
import SmartTest.Lib.Steps

/-!
# The lives of assets

An asset is created as a draft and then updated, one revision at a time. In every run of calls
the stored revisions of each asset are such a life, and nothing that was stored is lost.
-/

open SmartTest.Lib SmartTest.Run SmartTest.Plan

namespace SmartTest.Asset

variable {Fixed Values Status : Type} {kind : Kind Status} {id : UUID}

/-! ## One life -/

/-- The revisions of an asset that was created and then updated. -/
inductive Life (kind : Kind Status) (id : UUID) : List (Record Fixed Values Status) → Prop
  | create (projectId : UUID) (fixed : Fixed) (values : Values) (now : Instant) :
    Life kind id [kind.first id projectId fixed values now]
  | update {history : List (Record Fixed Values Status)} {record updated : Record Fixed Values Status} (values : Values)
      (status : Status) (now : Instant) (life : Life kind id history) (latest : history.getLast? = some record)
      (accepted : record.update kind values status now = .ok updated) : Life kind id (history ++ [updated])

/-- What no update changes. -/
def Record.SameAsset (a b : Record Fixed Values Status) : Prop :=
  a.id = b.id ∧ a.projectId = b.projectId ∧ a.fixed = b.fixed ∧ a.createdAt = b.createdAt

theorem Record.SameAsset.trans {a b c : Record Fixed Values Status} (h : a.SameAsset b) (h' : b.SameAsset c) :
    a.SameAsset c :=
  ⟨h.1.trans h'.1, h.2.1.trans h'.2.1, h.2.2.1.trans h'.2.2.1, h.2.2.2.trans h'.2.2.2⟩

theorem Record.update_same {record updated : Record Fixed Values Status} {values : Values} {status : Status}
    {now : Instant} (h : record.update kind values status now = .ok updated) :
    updated.SameAsset record ∧ updated.revision = record.revision + 1 ∧
      updated.stateVersion = record.stateVersion + 1 ∧ kind.next record.status status = .ok updated.status := by
  obtain ⟨next, hnext, rfl⟩ := Record.update_ok_iff.mp h
  exact ⟨⟨rfl, rfl, rfl, rfl⟩, rfl, rfl, hnext⟩

namespace Life

variable {history : List (Record Fixed Values Status)} {record : Record Fixed Values Status}

theorem ne_nil (h : Life kind id history) : history ≠ [] := by
  cases h <;> simp

/-- The last revision has the number of the revisions. -/
theorem counted (h : Life kind id history) (hlast : history.getLast? = some record) :
    record.id = id ∧ record.revision = history.length ∧ record.stateVersion + 1 = history.length := by
  induction h generalizing record with
  | create projectId fixed values now =>
    obtain rfl : kind.first id projectId fixed values now = record := by simpa using hlast
    simp [Kind.first]
  | update values status now life latest accepted ih =>
    obtain ⟨hid, hrevision, hversion⟩ := ih latest
    obtain ⟨⟨hsame, -⟩, hnumber, hstate, -⟩ := Record.update_same accepted
    rw [List.getLast?_append, List.getLast?_singleton, Option.some_or, Option.some.injEq] at hlast
    subst hlast
    refine ⟨hsame.trans hid, ?_, ?_⟩
    · simp [hnumber, hrevision]
    · simp [hstate, hversion]

/-- Revision `k + 1` has version `k`. -/
theorem numbered (h : Life kind id history) {k : Nat} (hget : history[k]? = some record) :
    record.id = id ∧ record.revision = k + 1 ∧ record.stateVersion = k := by
  induction h with
  | create projectId fixed values now =>
    cases k with
    | zero =>
      obtain rfl : kind.first id projectId fixed values now = record := by simpa using hget
      simp [Kind.first]
    | succ k => simp at hget
  | @update history latest updated values status now life hlatest accepted ih =>
    by_cases hk : k < history.length
    · rw [List.getElem?_append_left hk] at hget
      exact ih hget
    · have hend : k = history.length := by
        have := (List.getElem?_eq_some_iff.mp hget).1
        simp only [List.length_append, List.length_singleton] at this
        omega
      subst hend
      obtain rfl : updated = record := by simpa using hget
      have hlast : (history ++ [updated]).getLast? = some updated := by simp
      have hlife := (Life.update values status now life hlatest accepted).counted hlast
      simp only [List.length_append, List.length_singleton] at hlife
      exact ⟨hlife.1, hlife.2.1, by omega⟩

theorem same (h : Life kind id history) {latest : Record Fixed Values Status} (hlast : history.getLast? = some latest)
    (hmem : record ∈ history) : record.SameAsset latest := by
  induction h generalizing latest record with
  | create projectId fixed values now =>
    obtain rfl : kind.first id projectId fixed values now = latest := by simpa using hlast
    obtain rfl := List.mem_singleton.mp hmem
    exact ⟨rfl, rfl, rfl, rfl⟩
  | @update history before updated values status now life hbefore accepted ih =>
    obtain rfl : updated = latest := by simpa using hlast
    have hsame := (Record.update_same accepted).1
    rcases List.mem_append.mp hmem with hold | hnew
    · have hold := ih hbefore hold
      exact hold.trans ⟨hsame.1.symm, hsame.2.1.symm, hsame.2.2.1.symm, hsame.2.2.2.symm⟩
    · obtain rfl := List.mem_singleton.mp hnew
      exact ⟨rfl, rfl, rfl, rfl⟩

end Life

/-! ## The statuses of a life -/

/-- A status that only moves on: two that may stay, and a last one. -/
structure Kind.MovesOn (kind : Kind Status) (first second last : Status) : Prop where
  draft : kind.draft = first
  moves : ∀ s t next, kind.next s t = .ok next ↔
    next = t ∧ ((s = t ∧ s ≠ last) ∨ (s = first ∧ t = second) ∨ (s = second ∧ t = last))
  distinct : first ≠ second ∧ second ≠ last ∧ first ≠ last

theorem requirement_movesOn : requirementKind.MovesOn .draft .active .archived where
  draft := rfl
  moves := by
    intro s t next
    unfold requirementKind
    rw [nextStatus_ok_iff]
    cases s <;> cases t <;> simp [REQUIREMENT_TRANSITIONS]
  distinct := by simp

theorem testCase_movesOn : testCaseKind.MovesOn .draft .ready .archived where
  draft := rfl
  moves := by
    intro s t next
    unfold testCaseKind
    rw [nextStatus_ok_iff]
    cases s <;> cases t <;> simp [TEST_CASE_TRANSITIONS]
  distinct := by simp

/-- Drafts, then revisions of the second status, then at most one of the last. -/
def InOrder (first second last : Status) (statuses : List Status) : Prop :=
  ∃ drafts seconds lasts, statuses = List.replicate (drafts + 1) first ++ List.replicate seconds second ++
    List.replicate lasts last ∧ lasts ≤ 1 ∧ (lasts = 1 → 0 < seconds)

theorem getLast?_append_replicate {α : Type} (l : List α) (n : Nat) (a : α) :
    (l ++ List.replicate n a).getLast? = if n = 0 then l.getLast? else some a := by
  cases n with
  | zero => simp
  | succ n => simp [List.getLast?_append, List.getLast?_replicate]

theorem Life.inOrder {history : List (Record Fixed Values Status)} {first second last : Status}
    (hkind : kind.MovesOn first second last) (h : Life kind id history) :
    InOrder first second last (history.map (·.status)) := by
  induction h with
  | create projectId fixed values now => exact ⟨0, 0, 0, by simp [Kind.first, hkind.draft], by omega, by omega⟩
  | @update history record updated values status now life latest accepted ih =>
    obtain ⟨drafts, seconds, lasts, hstatuses, hone, hbetween⟩ := ih
    obtain ⟨hfirst, hlast, hends⟩ := hkind.distinct
    obtain ⟨-, -, -, hnext⟩ := Record.update_same accepted
    obtain ⟨htarget, hmove⟩ := (hkind.moves _ _ _).mp hnext
    rw [← htarget] at hmove
    have hrecord : (history.map (·.status)).getLast? = some record.status := by rw [List.getLast?_map, latest]; rfl
    rw [hstatuses, getLast?_append_replicate, getLast?_append_replicate, List.getLast?_replicate] at hrecord
    rw [List.map_append, hstatuses]
    by_cases hlasts : lasts = 0
    · subst hlasts
      by_cases hseconds : seconds = 0
      · -- Only drafts so far.
        subst hseconds
        have hstatus : record.status = first := by simpa [eq_comm] using hrecord
        rw [hstatus] at hmove
        rcases hmove with ⟨hstay, -⟩ | ⟨-, hon⟩ | ⟨hwrong, -⟩
        · exact ⟨drafts + 1, 0, 0, by simp [← hstay, List.replicate_succ'], by omega, by omega⟩
        · exact ⟨drafts, 1, 0, by simp [hon], by omega, by omega⟩
        · exact absurd hwrong hfirst
      · have hstatus : record.status = second := by simpa [hseconds, eq_comm] using hrecord
        rw [hstatus] at hmove
        rcases hmove with ⟨hstay, -⟩ | ⟨hwrong, -⟩ | ⟨-, hon⟩
        · exact ⟨drafts, seconds + 1, 0, by simp [← hstay, List.replicate_succ'], by omega, by omega⟩
        · exact absurd hwrong.symm hfirst
        · exact ⟨drafts, seconds, 1, by simp [hon], by omega, by omega⟩
    · -- The last status lets nothing follow.
      have hstatus : record.status = last := by simpa [hlasts, eq_comm] using hrecord
      rw [hstatus] at hmove
      rcases hmove with ⟨-, hwrong⟩ | ⟨hwrong, -⟩ | ⟨hwrong, -⟩
      · exact absurd rfl hwrong
      · exact absurd hwrong.symm hends
      · exact absurd hwrong.symm hlast

/-- Drafts, then active revisions with single archived ones between and after them. -/
def Reactivated (statuses : List AutomationScriptStatus) : Prop :=
  ∃ drafts later, statuses = List.replicate (drafts + 1) .draft ++ later ∧ .draft ∉ later ∧
    later.head? ≠ some .archived ∧ later.IsChain fun s t => s = .active ∨ t = .active

theorem isChain_concat {α : Type} {R : α → α → Prop} {l : List α} {a : α} (h : l.IsChain R)
    (hlast : ∀ b, l.getLast? = some b → R b a) : (l ++ [a]).IsChain R := by
  apply h.append (.singleton a)
  intro b hb c hc
  obtain rfl : a = c := by simpa using hc
  exact hlast b hb

theorem Life.reactivated {history : List AutomationScriptRecord} (h : Life scriptKind id history) :
    Reactivated (history.map (·.status)) := by
  induction h with
  | create projectId fixed values now => exact ⟨0, [], by simp [Kind.first, scriptKind], by simp, by simp, .nil⟩
  | @update history record updated values status now life latest accepted ih =>
    obtain ⟨drafts, later, hstatuses, hdraft, hhead, hchain⟩ := ih
    obtain ⟨-, -, -, hnext⟩ := Record.update_same accepted
    obtain ⟨htarget, hmove⟩ := nextScriptStatus_ok_iff.mp hnext
    rw [← htarget] at hmove
    have hrecord : (history.map (·.status)).getLast? = some record.status := by rw [List.getLast?_map, latest]; rfl
    rw [hstatuses] at hrecord
    rw [List.map_append, hstatuses]
    cases hlater : later.getLast? with
    | none =>
      obtain rfl := List.getLast?_eq_none_iff.mp hlater
      have hstatus : record.status = .draft := by
        simpa [List.getLast?_replicate, eq_comm] using hrecord
      rw [hstatus] at hmove
      rcases hmove with ⟨hstay, -⟩ | ⟨-, hon⟩
      · exact ⟨drafts + 1, [], by simp [← hstay, List.replicate_succ'], by simp, by simp, .nil⟩
      · have hactive : updated.status = .active := by simpa [SCRIPT_TRANSITIONS] using hon
        exact ⟨drafts, [.active], by simp [hactive], by simp, by simp, .singleton _⟩
    | some before =>
      obtain rfl : before = record.status := by simpa [List.getLast?_append, hlater] using hrecord
      have hmem : record.status ∈ later := List.mem_of_getLast? hlater
      have hne : record.status ≠ .draft := fun h => hdraft (h ▸ hmem)
      have hnil : later ≠ [] := List.ne_nil_of_mem hmem
      have hpair : updated.status ≠ .draft ∧ (record.status = .active ∨ updated.status = .active) := by
        generalize record.status = s at hmove hne
        generalize updated.status = t at hmove
        cases s <;> cases t <;> simp_all [SCRIPT_TRANSITIONS]
      refine ⟨drafts, later ++ [updated.status], by simp, ?_, ?_, ?_⟩
      · simpa [hdraft] using hpair.1.symm
      · cases later with
        | nil => exact absurd rfl hnil
        | cons s rest => simpa using hhead
      · apply isChain_concat hchain
        intro b hb
        obtain rfl : record.status = b := by rw [hlater] at hb; exact Option.some.inj hb
        exact hpair.2

/-! ## One family -/

namespace Store

variable {store after later : Store Fixed Values Status} {versions : UUID → List Nat}

/-- Every record is the last revision of a life, and its updates carried the versions from 0 on. -/
structure Lives (kind : Kind Status) (drawn : List UUID) (versions : UUID → List Nat)
    (store : Store Fixed Values Status) : Prop where
  stored : ∀ id record, store.records.get? id = some record → ∃ history, store.revisions.get? id = some history ∧
    Life kind id history ∧ history.getLast? = some record ∧ versions id = List.range record.stateVersion
  drawn : ∀ id record, store.records.get? id = some record → id ∈ drawn
  known : ∀ id, store.records.get? id = none → store.revisions.get? id = none ∧ versions id = []

theorem Lives.empty (kind : Kind Status) :
    Lives kind [] (fun _ => []) (empty : Store Fixed Values Status) where
  stored := by simp [Store.empty]
  drawn := by simp [Store.empty]
  known := by simp [Store.empty]

theorem Lives.draw {drawn : List UUID} (h : Lives kind drawn versions store) (ids : List UUID) :
    Lives kind (drawn ++ ids) versions store :=
  ⟨h.stored, fun id record hrecord => List.mem_append_left _ (h.drawn id record hrecord), h.known⟩

theorem Lives.create {drawn : List UUID} (h : Lives kind drawn versions store) {newId projectId : UUID} {fixed : Fixed}
    {values : Values} {now : Instant} (hnew : newId ∉ drawn) :
    Lives kind (drawn ++ [newId]) versions (store.create kind newId projectId fixed values now).2 := by
  have hfresh : store.records.get? newId = none := by
    cases hget : store.records.get? newId with
    | none => rfl
    | some record => exact absurd (h.drawn newId record hget) hnew
  unfold Store.create
  refine ⟨?_, ?_, ?_⟩
  · intro id record hrecord
    simp only [Dict.get?_set] at hrecord ⊢
    by_cases hcase : id = newId
    · subst hcase
      obtain rfl : kind.first id projectId fixed values now = record := by simpa using hrecord
      exact ⟨_, if_pos rfl, .create projectId fixed values now, rfl, (h.known id hfresh).2⟩
    · rw [if_neg hcase] at hrecord ⊢
      exact h.stored id record hrecord
  · intro id record hrecord
    simp only [Dict.get?_set] at hrecord
    by_cases hcase : id = newId
    · simp [hcase]
    · rw [if_neg hcase] at hrecord
      exact List.mem_append_left _ (h.drawn id record hrecord)
  · intro id hnone
    simp only [Dict.get?_set] at hnone ⊢
    by_cases hcase : id = newId
    · simp [hcase] at hnone
    · rw [if_neg hcase] at hnone ⊢
      exact h.known id hnone

/-- An accepted update, taken apart. -/
theorem update_ok {expectedVersion : Nat} {values : Values} {status : Status} {now : Instant}
    {updated : Record Fixed Values Status}
    (h : store.update kind id expectedVersion values status now = .ok (updated, after)) :
    ∃ current history, store.records.get? id = some current ∧ store.revisions.get? id = some history ∧
      current.stateVersion = expectedVersion ∧ current.update kind values status now = .ok updated ∧
      after = ⟨store.records.set id updated, store.revisions.set id (history ++ [updated])⟩ := by
  unfold Store.update Store.get at h
  cases hrecord : store.records.get? id with
  | none => simp [hrecord, error_bind] at h
  | some current =>
    simp only [hrecord, ok_bind, bind_eq_ok_iff] at h
    obtain ⟨_, hversion, record, hupdated, hrest⟩ := h
    cases hrevisions : store.revisions.get? id with
    | none => simp [hrevisions] at hrest
    | some history =>
      simp only [hrevisions, pure_eq_ok_iff, Prod.mk.injEq] at hrest
      obtain ⟨rfl, rfl⟩ := hrest
      exact ⟨current, history, rfl, rfl, checkVersion_ok_iff.mp hversion, hupdated, rfl⟩

theorem Lives.update {drawn : List UUID} (h : Lives kind drawn versions store) {expectedVersion : Nat}
    {values : Values} {status : Status} {now : Instant} {updated : Record Fixed Values Status}
    (hok : store.update kind id expectedVersion values status now = .ok (updated, after)) :
    Lives kind drawn (fun i => if i = id then versions i ++ [expectedVersion] else versions i) after := by
  obtain ⟨current, history, hcurrent, hhistory, rfl, hupdated, rfl⟩ := update_ok hok
  obtain ⟨found, hfound, hlife, hlast, hversions⟩ := h.stored id current hcurrent
  obtain rfl : history = found := Option.some.inj (hhistory.symm.trans hfound)
  obtain ⟨-, -, hstate, -⟩ := Record.update_same hupdated
  refine ⟨?_, ?_, ?_⟩
  · intro other record hrecord
    simp only [Dict.get?_set] at hrecord ⊢
    by_cases hcase : other = id
    · subst hcase
      obtain rfl : updated = record := by simpa using hrecord
      refine ⟨_, if_pos rfl, .update values status now hlife hlast hupdated, by simp, ?_⟩
      rw [if_pos rfl, hversions, hstate, List.range_succ]
    · rw [if_neg hcase] at hrecord
      rw [if_neg hcase, if_neg hcase]
      exact h.stored other record hrecord
  · intro other record hrecord
    simp only [Dict.get?_set] at hrecord
    by_cases hcase : other = id
    · exact hcase ▸ h.drawn id current hcurrent
    · rw [if_neg hcase] at hrecord
      exact h.drawn other record hrecord
  · intro other hnone
    simp only [Dict.get?_set] at hnone ⊢
    by_cases hcase : other = id
    · simp [hcase] at hnone
    · rw [if_neg hcase] at hnone
      rw [if_neg hcase, if_neg hcase]
      exact h.known other hnone

/-! ## Nothing is lost -/

/-- Every asset is still there, with what its updates do not change, and its revisions go on. -/
structure Later (store later : Store Fixed Values Status) : Prop where
  records : ∀ id record, store.records.get? id = some record →
    ∃ record', later.records.get? id = some record' ∧ record'.SameAsset record
  revisions : ∀ id history, store.revisions.get? id = some history →
    ∃ more, later.revisions.get? id = some (history ++ more)

theorem Later.refl (store : Store Fixed Values Status) : Later store store where
  records _ record hrecord := ⟨record, hrecord, rfl, rfl, rfl, rfl⟩
  revisions _ history hhistory := ⟨[], by simpa using hhistory⟩

theorem Later.trans (h : Later store after) (h' : Later after later) : Later store later where
  records := by
    intro id record hrecord
    obtain ⟨record', hrecord', hsame⟩ := h.records id record hrecord
    obtain ⟨record'', hrecord'', hsame'⟩ := h'.records id record' hrecord'
    exact ⟨record'', hrecord'', hsame'.trans hsame⟩
  revisions := by
    intro id history hhistory
    obtain ⟨more, hmore⟩ := h.revisions id history hhistory
    obtain ⟨rest, hrest⟩ := h'.revisions id _ hmore
    exact ⟨more ++ rest, by rw [hrest, List.append_assoc]⟩

theorem Lives.later_create {drawn : List UUID} (h : Lives kind drawn versions store) {newId : UUID}
    (projectId : UUID) (fixed : Fixed) (values : Values) (now : Instant) (hnew : newId ∉ drawn) :
    Later store (store.create kind newId projectId fixed values now).2 := by
  have hother : ∀ id record, store.records.get? id = some record → id ≠ newId := by
    rintro id record hrecord rfl
    exact hnew (h.drawn id record hrecord)
  unfold Store.create
  constructor
  · intro id record hrecord
    exact ⟨record, by simpa [hother id record hrecord] using hrecord, rfl, rfl, rfl, rfl⟩
  · intro id history hhistory
    have hne : id ≠ newId := by
      rintro rfl
      cases hrecord : store.records.get? id with
      | none => simp [(h.known id hrecord).1] at hhistory
      | some record => exact hother id record hrecord rfl
    exact ⟨[], by simpa [hne] using hhistory⟩

theorem later_update {expectedVersion : Nat} {values : Values} {status : Status} {now : Instant}
    {updated : Record Fixed Values Status}
    (hok : store.update kind id expectedVersion values status now = .ok (updated, after)) : Later store after := by
  obtain ⟨current, history, hcurrent, hhistory, -, hupdated, rfl⟩ := update_ok hok
  constructor
  · intro other record hrecord
    by_cases hcase : other = id
    · subst hcase
      obtain rfl : current = record := Option.some.inj (hcurrent.symm.trans hrecord)
      exact ⟨updated, by simp, (Record.update_same hupdated).1⟩
    · exact ⟨record, by simpa [hcase] using hrecord, rfl, rfl, rfl, rfl⟩
  · intro other others hothers
    by_cases hcase : other = id
    · subst hcase
      obtain rfl : history = others := Option.some.inj (hhistory.symm.trans hothers)
      exact ⟨[updated], by simp⟩
    · exact ⟨[], by simpa [hcase] using hothers⟩

end Store

/-! ## Links -/

variable {Fixed' Values' Status' : Type}

/-- Every link stands at its ends, and joins two assets of one project. -/
def Joined (sources : Store Fixed Values Status) (targets : Store Fixed' Values' Status')
    (links : Dict (UUID × UUID) LinkRecord) : Prop :=
  ∀ key link, links.get? key = some link → link.ends = key ∧ ∃ a b, sources.records.get? key.1 = some a ∧
    targets.records.get? key.2 = some b ∧ a.projectId = b.projectId

theorem Joined.later {sources sources' : Store Fixed Values Status} {targets targets' : Store Fixed' Values' Status'}
    {links : Dict (UUID × UUID) LinkRecord} (h : Joined sources targets links) (hsources : sources.Later sources')
    (htargets : targets.Later targets') : Joined sources' targets' links := by
  intro key link hlink
  obtain ⟨hends, a, b, ha, hb, hproject⟩ := h key link hlink
  obtain ⟨a', ha', hsame⟩ := hsources.records _ a ha
  obtain ⟨b', hb', hsame'⟩ := htargets.records _ b hb
  exact ⟨hends, a', b', ha', hb', hsame.2.1.trans (hproject.trans hsame'.2.1.symm)⟩

theorem Joined.link {sources : Store Fixed Values Status} {targets : Store Fixed' Values' Status'}
    {links : Dict (UUID × UUID) LinkRecord} (h : Joined sources targets links) {a : Record Fixed Values Status}
    {b : Record Fixed' Values' Status'} {key : UUID × UUID} (ha : sources.records.get? key.1 = some a)
    (hb : targets.records.get? key.2 = some b) (hproject : a.projectId = b.projectId) (now : Instant) :
    Joined sources targets (links.set key ⟨key, now⟩) := by
  intro other link hlink
  rw [Dict.get?_set] at hlink
  split at hlink
  · next hcase =>
    subst hcase
    obtain rfl := Option.some.inj hlink
    exact ⟨rfl, a, b, ha, hb, hproject⟩
  · exact h other link hlink

end SmartTest.Asset
