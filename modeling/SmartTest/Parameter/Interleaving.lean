import SmartTest.Parameter.Sql
import SmartTest.Parameter.Validity

/-!
# Enum parameters under concurrent transactions

`replace_script_parameters` locks the script and reads the sets it refers to, `update_enum_set`
locks the set and reads the parameters that refer to it: neither waits for the other. As long as
no commit goes behind what the other side has checked, the rows stay valid.
-/

open SmartTest.Lib SmartTest.Run

namespace SmartTest.Parameter

variable {project : UUID → Option UUID}

/-! ## The invariant -/

/-- Every stored parameter of type ENUM, and no other, refers to a set; the set is there, is of the project of the
script and offers the default. -/
structure Tables.Valid (project : UUID → Option UUID) (tables : Tables) : Prop where
  typed : ∀ scriptId items, tables.parameters.get? scriptId = some items → ∀ item ∈ items, Typed item
  refers : ∀ scriptId items, tables.parameters.get? scriptId = some items → ∀ item ∈ items,
    ∃ projectId, project scriptId = some projectId ∧ Refers tables.enums projectId item

/-- If the set the parameter refers to is still there, it is of the project and offers the default. -/
def Fits (enums : Dict UUID ParameterEnumSetRecord) (projectId : UUID) (item : ScriptParameterDefinition) : Prop :=
  ∀ enumSetId stored, item.enumSetId = some enumSetId → enums.get? enumSetId = some stored →
    stored.projectId = projectId ∧ Offers stored.options item.defaultValue

/-- Whatever a remembered set offers to the parameters that come, the stored one offers. -/
def Remembers (enums : Dict UUID ParameterEnumSetRecord) (checked rest : List ScriptParameterDefinition)
    (enumSetId : UUID) (record : ParameterEnumSetRecord) : Prop :=
  (∃ item ∈ checked, item.enumSetId = some enumSetId) ∧
  ∀ stored, enums.get? enumSetId = some stored → stored.projectId = record.projectId ∧
    ∀ item ∈ rest, item.enumSetId = some enumSetId → Offers record.options item.defaultValue →
      Offers stored.options item.defaultValue

/-- The options offer the defaults of all these parameters that refer to the set. -/
def Covers (options : List ParameterEnumOption) (enumSetId : UUID) (items : List ScriptParameterDefinition) : Prop :=
  ∀ item ∈ items, item.enumSetId = some enumSetId → Offers options item.defaultValue

/-- What a transaction has read still holds, as far as it counts on it. -/
def Stands (project : UUID → Option UUID) (tables : Tables) : Transaction → Prop
  | .replace _ validated => ∀ item ∈ validated, Typed item
  | .replaceChecking scriptId projectId checked rest loaded =>
    project scriptId = some projectId ∧ (∀ item ∈ checked ++ rest, Typed item) ∧
    (∀ item ∈ checked, Fits tables.enums projectId item) ∧
    ∀ enumSetId record, loaded = some (enumSetId, record) → Remembers tables.enums checked rest enumSetId record
  | .updateLocked enumSetId current _ _ _ => tables.enums.get? enumSetId = some current
  | .updateChecked enumSetId current _ _ options => tables.enums.get? enumSetId = some current ∧
    ∀ scriptId items, tables.parameters.get? scriptId = some items → Covers options enumSetId items
  | .update _ _ _ _ _ | .delete _ | .deleteLocked _ | .deleteChecked _ => True

namespace Database

structure Sound (project : UUID → Option UUID) (db : Database) : Prop where
  valid : db.tables.Valid project
  stands : ∀ t transaction, db.active.get? t = some transaction → Stands project db.tables transaction
  exclusive : ∀ t t' transaction transaction' row, db.active.get? t = some transaction →
    db.active.get? t' = some transaction' → transaction.lock = some row → transaction'.lock = some row → t = t'

/-- No update commits options behind a replacement that has read the set with a default they do not offer, and no
replacement commits a default behind an update that has checked the parameters and does not offer it. -/
def NoSkew (project : UUID → Option UUID) (db : Database) : Event → Prop
  | .go t => ∀ transaction tables, db.active.get? t = some transaction →
    transaction.next project db.tables (db.free t) = .commits tables →
    (∀ enumSetId current name description options,
      transaction = .updateChecked enumSetId current name description options →
      ∀ t' scriptId projectId checked rest loaded,
        db.active.get? t' = some (.replaceChecking scriptId projectId checked rest loaded) →
        (∃ item ∈ checked, item.enumSetId = some enumSetId) → Covers options enumSetId (checked ++ rest)) ∧
    (∀ scriptId projectId checked loaded, transaction = .replaceChecking scriptId projectId checked [] loaded →
      ∀ t' enumSetId current name description options,
        db.active.get? t' = some (.updateChecked enumSetId current name description options) →
        Covers options enumSetId checked)
  | _ => True

/-! ## Transactions that come and go -/

theorem free_iff {db : Database} {t : Nat} {row : Row} : db.free t row = true ↔
    ∀ t' transaction, db.active.get? t' = some transaction → transaction.lock = some row → t' = t := by
  unfold free
  rw [List.all_eq_true]
  constructor
  · intro h t' transaction hget hlock
    have hentry := h (t', transaction) ((Dict.get?_eq_some_iff _ _ _).mp hget)
    simpa [hlock] using hentry
  · rintro h ⟨t', transaction⟩ hentry
    have hsame := h t' transaction ((Dict.get?_eq_some_iff _ _ _).mpr hentry)
    by_cases hlock : transaction.lock = some row
    · simp [hsame hlock]
    · simp [hlock]

/-- A transaction begins or goes on, with the lock it had or one that is free. -/
theorem Sound.put {db : Database} (h : Sound project db) {t : Nat} {transaction : Transaction}
    (hstands : Stands project db.tables transaction)
    (hlock : ∀ row, transaction.lock = some row → db.free t row = true) :
    Sound project { db with active := db.active.set t transaction } := by
  refine ⟨h.valid, ?_, ?_⟩
  · intro t' transaction' hget
    rw [Dict.get?_set] at hget
    split at hget
    · obtain rfl := Option.some.inj hget
      exact hstands
    · exact h.stands t' transaction' hget
  · intro a b first second row ha hb hfirst hsecond
    rw [Dict.get?_set] at ha hb
    split at ha
    · next hat =>
      obtain rfl := Option.some.inj ha
      split at hb
      · next hbt => exact hat.trans hbt.symm
      · exact hat.trans (free_iff.mp (hlock row hfirst) b second hb hsecond).symm
    · split at hb
      · next hbt =>
        obtain rfl := Option.some.inj hb
        exact (free_iff.mp (hlock row hsecond) a first ha hfirst).trans hbt.symm
      · exact h.exclusive a b first second row ha hb hfirst hsecond

/-- The lock a transaction has is free for it. -/
theorem Sound.free_of_lock {db : Database} (h : Sound project db) {t : Nat} {transaction : Transaction}
    (hget : db.active.get? t = some transaction) {row : Row} (hlock : transaction.lock = some row) :
    db.free t row = true :=
  free_iff.mpr fun t' transaction' hget' hlock' => h.exclusive t' t transaction' transaction row hget' hget hlock' hlock

/-- A transaction ends, with the rows it leaves. -/
theorem Sound.ends {db : Database} (h : Sound project db) {t : Nat} {tables : Tables}
    (hvalid : tables.Valid project)
    (hstands : ∀ t' transaction, t' ≠ t → db.active.get? t' = some transaction → Stands project tables transaction) :
    Sound project ⟨tables, db.active.erase t⟩ := by
  refine ⟨hvalid, ?_, ?_⟩
  · intro t' transaction hget
    rw [Dict.get?_erase] at hget
    split at hget
    · cases hget
    · next hne => exact hstands t' transaction hne hget
  · intro a b first second row ha hb
    rw [Dict.get?_erase] at ha hb
    split at ha
    · cases ha
    · split at hb
      · cases hb
      · exact h.exclusive a b first second row ha hb

/-! ## One operation -/

theorem checkItem_ok {projectId : UUID} {item : ScriptParameterDefinition} {model : Option ParameterEnumSetRecord}
    {enumSet : ParameterEnumSetRecord} (h : checkItem projectId item model = .ok enumSet) :
    model = some enumSet ∧ enumSet.projectId = projectId ∧ Offers enumSet.options item.defaultValue := by
  cases model with
  | none => cases h
  | some found =>
    simp only [checkItem, error_bind, ite_error_eq_ok_iff, bind_eq_ok_iff, pure_eq_ok_iff] at h
    obtain ⟨hproject, answer, hanswer, htrue, rfl⟩ := h
    refine ⟨rfl, by simpa using hproject, ?_⟩
    apply offered_true
    rw [hanswer, Bool.eq_true_of_not_eq_false htrue]

/-- The set a session gives is the stored one, or one that it remembers. -/
theorem sessionGet_cases {tables : Tables} {loaded : Option (UUID × ParameterEnumSetRecord)} {enumSetId : UUID}
    {record : ParameterEnumSetRecord} (h : sessionGet tables loaded enumSetId = some record) :
    loaded = some (enumSetId, record) ∨ tables.enums.get? enumSetId = some record := by
  unfold sessionGet at h
  split at h
  · next id found =>
    split at h
    · next heq =>
      obtain rfl := Option.some.inj h
      exact .inl (by rw [heq])
    · exact .inr h
  · exact .inr h

/-- The loop goes over one more parameter. -/
theorem stands_checked {tables : Tables} {scriptId projectId : UUID} {checked rest : List ScriptParameterDefinition}
    {item : ScriptParameterDefinition} {loaded : Option (UUID × ParameterEnumSetRecord)} {enumSetId : UUID}
    {enumSet : ParameterEnumSetRecord}
    (h : Stands project tables (.replaceChecking scriptId projectId checked (item :: rest) loaded))
    (hset : item.enumSetId = some enumSetId)
    (hcheck : checkItem projectId item (sessionGet tables loaded enumSetId) = .ok enumSet) :
    Stands project tables
      (.replaceChecking scriptId projectId (checked ++ [item]) rest (some (enumSetId, enumSet))) := by
  obtain ⟨hproject, htyped, hfits, hloaded⟩ := h
  obtain ⟨hget, hsame, hoffers⟩ := checkItem_ok hcheck
  -- the set that was checked against the default is the stored one, up to what is asked of it
  have hstored : ∀ stored, tables.enums.get? enumSetId = some stored → stored.projectId = enumSet.projectId ∧
      ∀ other ∈ item :: rest, other.enumSetId = some enumSetId → Offers enumSet.options other.defaultValue →
        Offers stored.options other.defaultValue := by
    intro stored hstored
    rcases sessionGet_cases hget with hremembered | hfound
    · exact (hloaded enumSetId enumSet hremembered).2 stored hstored
    · obtain rfl := Option.some.inj (hfound.symm.trans hstored)
      exact ⟨rfl, fun _ _ _ ho => ho⟩
  refine ⟨hproject, by simpa using htyped, ?_, ?_⟩
  · intro other hother
    rcases List.mem_append.mp hother with hother | hother
    · exact hfits other hother
    · obtain rfl := List.mem_singleton.mp hother
      intro id stored hid hfound
      obtain rfl := Option.some.inj (hset.symm.trans hid)
      obtain ⟨hprojects, hall⟩ := hstored stored hfound
      exact ⟨hprojects.trans hsame, hall other List.mem_cons_self hset hoffers⟩
  · intro id record hpair
    obtain ⟨rfl, rfl⟩ := Prod.mk.inj (Option.some.inj hpair)
    refine ⟨⟨item, by simp, hset⟩, ?_⟩
    intro stored hfound
    obtain ⟨hprojects, hall⟩ := hstored stored hfound
    exact ⟨hprojects, fun other hother => hall other (List.mem_cons_of_mem _ hother)⟩

/-- A parameter that refers to nothing is passed over. -/
theorem stands_passed {tables : Tables} {scriptId projectId : UUID} {checked rest : List ScriptParameterDefinition}
    {item : ScriptParameterDefinition} {loaded : Option (UUID × ParameterEnumSetRecord)}
    (h : Stands project tables (.replaceChecking scriptId projectId checked (item :: rest) loaded))
    (hset : item.enumSetId = none) :
    Stands project tables (.replaceChecking scriptId projectId (checked ++ [item]) rest loaded) := by
  obtain ⟨hproject, htyped, hfits, hloaded⟩ := h
  refine ⟨hproject, by simpa using htyped, ?_, ?_⟩
  · intro other hother
    rcases List.mem_append.mp hother with hother | hother
    · exact hfits other hother
    · obtain rfl := List.mem_singleton.mp hother
      intro id stored hid
      cases hset.symm.trans hid
  · intro id record hpair
    obtain ⟨⟨other, hother, hid⟩, hstored⟩ := hloaded id record hpair
    refine ⟨⟨other, List.mem_append_left _ hother, hid⟩, ?_⟩
    intro stored hfound
    exact ⟨(hstored stored hfound).1, fun x hx => (hstored stored hfound).2 x (List.mem_cons_of_mem _ hx)⟩

theorem mem_referring {tables : Tables} {enumSetId : UUID} {item : ScriptParameterDefinition} :
    item ∈ tables.referring enumSetId ↔
      (∃ scriptId items, tables.parameters.get? scriptId = some items ∧ item ∈ items) ∧
        item.enumSetId = some enumSetId := by
  simp only [Tables.referring, List.mem_filter, List.mem_flatten, Dict.mem_values_iff, decide_eq_true_eq]
  constructor
  · rintro ⟨⟨items, ⟨scriptId, hget⟩, hitem⟩, hset⟩
    exact ⟨⟨scriptId, items, hget, hitem⟩, hset⟩
  · rintro ⟨⟨scriptId, items, hget, hitem⟩, hset⟩
    exact ⟨⟨items, ⟨scriptId, hget⟩, hitem⟩, hset⟩

/-- A transaction that goes on stands where it comes to, with its lock or one that was free. -/
theorem stands_next {tables : Tables} {free : Row → Bool} {transaction transaction' : Transaction}
    (h : Stands project tables transaction)
    (hnext : transaction.next project tables free = .goesOn transaction') :
    Stands project tables transaction' ∧
      ∀ row, transaction'.lock = some row → transaction.lock = some row ∨ free row = true := by
  cases transaction with
  | replace scriptId validated =>
    simp only [Transaction.next] at hnext
    split at hnext
    · cases hnext
    · next hfree =>
      split at hnext
      · cases hnext
      · next projectId hproject =>
        obtain rfl := Next.goesOn.inj hnext
        refine ⟨⟨hproject, h, by simp, by simp⟩, ?_⟩
        rintro row ⟨⟩
        exact .inr (by simpa using hfree)
  | replaceChecking scriptId projectId checked rest loaded =>
    cases rest with
    | nil =>
      simp only [Transaction.next] at hnext
      split at hnext <;> cases hnext
    | cons item rest =>
      simp only [Transaction.next] at hnext
      split at hnext
      · next hset =>
        obtain rfl := Next.goesOn.inj hnext
        exact ⟨stands_passed h hset, fun row hrow => .inl hrow⟩
      · next enumSetId hset =>
        split at hnext
        · cases hnext
        · next enumSet hcheck =>
          obtain rfl := Next.goesOn.inj hnext
          exact ⟨stands_checked h hset hcheck, fun row hrow => .inl hrow⟩
  | update enumSetId expectedVersion name description options =>
    simp only [Transaction.next] at hnext
    split at hnext
    · cases hnext
    · next hfree =>
      split at hnext
      · cases hnext
      · next current hcurrent =>
        split at hnext
        · cases hnext
        · obtain rfl := Next.goesOn.inj hnext
          refine ⟨hcurrent, ?_⟩
          rintro row ⟨⟩
          exact .inr (by simpa using hfree)
  | updateLocked enumSetId current name description options =>
    simp only [Transaction.next] at hnext
    split at hnext
    · cases hnext
    · next hdefaults =>
      obtain rfl := Next.goesOn.inj hnext
      refine ⟨⟨h, ?_⟩, fun row hrow => .inl hrow⟩
      intro scriptId items hitems item hitem hset
      exact ParameterRepository.validateDefaults_ok hdefaults item
        (mem_referring.mpr ⟨⟨scriptId, items, hitems, hitem⟩, hset⟩) hset
  | updateChecked enumSetId current name description options =>
    simp only [Transaction.next] at hnext
    split at hnext <;> cases hnext
  | delete enumSetId =>
    simp only [Transaction.next] at hnext
    split at hnext
    · cases hnext
    · next hfree =>
      split at hnext
      · cases hnext
      · obtain rfl := Next.goesOn.inj hnext
        refine ⟨trivial, ?_⟩
        rintro row ⟨⟩
        exact .inr (by simpa using hfree)
  | deleteLocked enumSetId =>
    simp only [Transaction.next] at hnext
    split at hnext
    · obtain rfl := Next.goesOn.inj hnext
      exact ⟨trivial, fun row hrow => .inl hrow⟩
    · cases hnext
  | deleteChecked enumSetId =>
    simp only [Transaction.next] at hnext
    split at hnext <;> cases hnext

/-! ## Commits -/

/-- `replace_script_parameters` commits. -/
theorem Sound.commit_replace {db : Database} (h : Sound project db) {t : Nat} {scriptId projectId : UUID}
    {checked : List ScriptParameterDefinition} {loaded : Option (UUID × ParameterEnumSetRecord)}
    (hget : db.active.get? t = some (.replaceChecking scriptId projectId checked [] loaded))
    (hexist : db.tables.referencesExist checked = true)
    (hskew : ∀ t' enumSetId current name description options,
      db.active.get? t' = some (.updateChecked enumSetId current name description options) →
      Covers options enumSetId checked) :
    Sound project ⟨{ db.tables with parameters := db.tables.parameters.set scriptId checked }, db.active.erase t⟩ := by
  obtain ⟨hproject, htyped, hfits, -⟩ := h.stands t _ hget
  rw [List.append_nil] at htyped
  have hrefers : ∀ item ∈ checked, Refers db.tables.enums projectId item := by
    intro item hitem enumSetId hset
    have hthere := List.all_eq_true.mp hexist item hitem
    simp only [hset, Option.all_some] at hthere
    obtain ⟨stored, hstored⟩ := Option.isSome_iff_exists.mp hthere
    exact ⟨stored, hstored, hfits item hitem enumSetId stored hset hstored⟩
  refine h.ends ⟨?_, ?_⟩ ?_
  · intro other items hitems
    rw [Dict.get?_set] at hitems
    split at hitems
    · obtain rfl := Option.some.inj hitems
      exact htyped
    · exact h.valid.typed other items hitems
  · intro other items hitems
    rw [Dict.get?_set] at hitems
    split at hitems
    · next heq =>
      obtain rfl := Option.some.inj hitems
      rw [heq]
      exact fun item hitem => ⟨projectId, hproject, hrefers item hitem⟩
    · exact h.valid.refers other items hitems
  · intro t' transaction hne hget'
    have hstands := h.stands t' transaction hget'
    cases transaction with
    | updateChecked enumSetId current name description options =>
      refine ⟨hstands.1, ?_⟩
      intro other items hitems
      rw [Dict.get?_set] at hitems
      split at hitems
      · obtain rfl := Option.some.inj hitems
        exact hskew t' enumSetId current name description options hget'
      · exact hstands.2 other items hitems
    | replace | replaceChecking | update | updateLocked | delete | deleteLocked | deleteChecked => exact hstands

/-- `update_enum_set` commits. -/
theorem Sound.commit_update {db : Database} (h : Sound project db) {t : Nat} {enumSetId : UUID}
    {current : ParameterEnumSetRecord} {name description : String} {options : List ParameterEnumOption}
    (hget : db.active.get? t = some (.updateChecked enumSetId current name description options))
    (hskew : ∀ t' scriptId projectId checked rest loaded,
      db.active.get? t' = some (.replaceChecking scriptId projectId checked rest loaded) →
      (∃ item ∈ checked, item.enumSetId = some enumSetId) → Covers options enumSetId (checked ++ rest)) :
    Sound project ⟨{ db.tables with
      enums := db.tables.enums.set enumSetId (current.update name description options) }, db.active.erase t⟩ := by
  obtain ⟨hcurrent, hcovers⟩ := h.stands t _ hget
  have hlocked : ∀ t' transaction, t' ≠ t → db.active.get? t' = some transaction →
      transaction.lock ≠ some (.enumSet enumSetId) := by
    intro t' transaction hne hget' hlock
    exact hne (h.exclusive t' t transaction _ _ hget' hget hlock rfl)
  refine h.ends ⟨h.valid.typed, ?_⟩ ?_
  · intro scriptId items hitems item hitem
    obtain ⟨projectId, hproject, hrefers⟩ := h.valid.refers scriptId items hitems item hitem
    refine ⟨projectId, hproject, ?_⟩
    intro other hset
    obtain ⟨stored, hstored, hown, hoffers⟩ := hrefers other hset
    by_cases heq : other = enumSetId
    · subst heq
      obtain rfl := Option.some.inj (hcurrent.symm.trans hstored)
      exact ⟨_, Dict.get?_set_self _ _ _, hown, hcovers scriptId items hitems item hitem hset⟩
    · exact ⟨stored, by rw [Dict.get?_set_ne _ _ heq]; exact hstored, hown, hoffers⟩
  · intro t' transaction hne hget'
    have hstands := h.stands t' transaction hget'
    cases transaction with
    | replaceChecking scriptId projectId checked rest loaded =>
      obtain ⟨hproject, htyped, hfits, hloaded⟩ := hstands
      have hskew' := hskew t' scriptId projectId checked rest loaded hget'
      refine ⟨hproject, htyped, ?_, ?_⟩
      · intro item hitem other stored hset hstored
        rw [Dict.get?_set] at hstored
        split at hstored
        · next heq =>
          subst heq
          obtain rfl := Option.some.inj hstored
          obtain ⟨hown, -⟩ := hfits item hitem other current hset hcurrent
          exact ⟨hown, hskew' ⟨item, hitem, hset⟩ item (List.mem_append_left _ hitem) hset⟩
        · exact hfits item hitem other stored hset hstored
      · intro other record hpair
        obtain ⟨hread, hremembered⟩ := hloaded other record hpair
        refine ⟨hread, ?_⟩
        intro stored hstored
        rw [Dict.get?_set] at hstored
        split at hstored
        · next heq =>
          subst heq
          obtain rfl := Option.some.inj hstored
          exact ⟨(hremembered current hcurrent).1, fun item hitem hset _ =>
            hskew' hread item (List.mem_append_right _ hitem) hset⟩
        · exact hremembered stored hstored
    | updateLocked other found =>
      have hne' : other ≠ enumSetId := by
        rintro rfl
        exact hlocked t' _ hne hget' rfl
      exact (Dict.get?_set_ne _ _ hne').trans hstands
    | updateChecked other found =>
      have hne' : other ≠ enumSetId := by
        rintro rfl
        exact hlocked t' _ hne hget' rfl
      exact ⟨(Dict.get?_set_ne _ _ hne').trans hstands.1, hstands.2⟩
    | replace | update | delete | deleteLocked | deleteChecked => exact hstands

/-- `delete_enum_set` commits: the foreign keys keep the sets that are referred to. -/
theorem Sound.commit_delete {db : Database} (h : Sound project db) {t : Nat} {enumSetId : UUID}
    (hget : db.active.get? t = some (.deleteChecked enumSetId)) (hunreferred : db.tables.referring enumSetId = []) :
    Sound project ⟨{ db.tables with enums := db.tables.enums.erase enumSetId }, db.active.erase t⟩ := by
  have hkept : ∀ {id : UUID} {stored : ParameterEnumSetRecord},
      (db.tables.enums.erase enumSetId).get? id = some stored → db.tables.enums.get? id = some stored := by
    intro id stored hstored
    rw [Dict.get?_erase] at hstored
    split at hstored
    · cases hstored
    · exact hstored
  have hlocked : ∀ t' transaction, t' ≠ t → db.active.get? t' = some transaction →
      transaction.lock ≠ some (.enumSet enumSetId) := by
    intro t' transaction hne hget' hlock
    exact hne (h.exclusive t' t transaction _ _ hget' hget hlock rfl)
  refine h.ends ⟨h.valid.typed, ?_⟩ ?_
  · intro scriptId items hitems item hitem
    obtain ⟨projectId, hproject, hrefers⟩ := h.valid.refers scriptId items hitems item hitem
    refine ⟨projectId, hproject, ?_⟩
    intro other hset
    obtain ⟨stored, hstored, hrest⟩ := hrefers other hset
    refine ⟨stored, ?_, hrest⟩
    rw [Dict.get?_erase, if_neg]
    · exact hstored
    · rintro rfl
      have hmem : item ∈ db.tables.referring other := mem_referring.mpr ⟨⟨scriptId, items, hitems, hitem⟩, hset⟩
      rw [hunreferred] at hmem
      cases hmem
  · intro t' transaction hne hget'
    have hstands := h.stands t' transaction hget'
    cases transaction with
    | replaceChecking scriptId projectId checked rest loaded =>
      obtain ⟨hproject, htyped, hfits, hloaded⟩ := hstands
      refine ⟨hproject, htyped, ?_, ?_⟩
      · exact fun item hitem other stored hset hstored => hfits item hitem other stored hset (hkept hstored)
      · intro other record hpair
        obtain ⟨hread, hremembered⟩ := hloaded other record hpair
        exact ⟨hread, fun stored hstored => hremembered stored (hkept hstored)⟩
    | updateLocked other found =>
      have hne' : other ≠ enumSetId := by
        rintro rfl
        exact hlocked t' _ hne hget' rfl
      exact (by rw [Dict.get?_erase, if_neg hne'] : (db.tables.enums.erase enumSetId).get? other = _).trans hstands
    | updateChecked other found =>
      have hne' : other ≠ enumSetId := by
        rintro rfl
        exact hlocked t' _ hne hget' rfl
      exact ⟨(by rw [Dict.get?_erase, if_neg hne'] : (db.tables.enums.erase enumSetId).get? other = _).trans hstands.1,
        hstands.2⟩
    | replace | update | delete | deleteLocked | deleteChecked => exact hstands

theorem Sound.commit {db : Database} (h : Sound project db) {t : Nat} {transaction : Transaction} {tables : Tables}
    (hget : db.active.get? t = some transaction)
    (hnext : transaction.next project db.tables (db.free t) = .commits tables)
    (hskew : NoSkew project db (.go t)) : Sound project ⟨tables, db.active.erase t⟩ := by
  obtain ⟨hupdates, hreplaces⟩ := hskew transaction tables hget hnext
  cases transaction with
  | replaceChecking scriptId projectId checked rest loaded =>
    cases rest with
    | nil =>
      simp only [Transaction.next] at hnext
      split at hnext
      · next hexist =>
        obtain rfl := Next.commits.inj hnext
        exact h.commit_replace hget hexist (hreplaces scriptId projectId checked loaded rfl)
      · cases hnext
    | cons item rest =>
      simp only [Transaction.next] at hnext
      split at hnext
      · cases hnext
      · split at hnext <;> cases hnext
  | updateChecked enumSetId current name description options =>
    simp only [Transaction.next] at hnext
    split at hnext
    · obtain rfl := Next.commits.inj hnext
      exact h.commit_update hget (hupdates enumSetId current name description options rfl)
    · cases hnext
  | deleteChecked enumSetId =>
    simp only [Transaction.next] at hnext
    split at hnext
    · next hempty =>
      obtain rfl := Next.commits.inj hnext
      exact h.commit_delete hget (List.isEmpty_iff.mp hempty)
    · cases hnext
  | replace scriptId validated =>
    simp only [Transaction.next] at hnext
    split at hnext
    · cases hnext
    · split at hnext <;> cases hnext
  | update enumSetId expectedVersion name description options =>
    simp only [Transaction.next] at hnext
    split at hnext
    · cases hnext
    · split at hnext
      · cases hnext
      · split at hnext <;> cases hnext
  | updateLocked enumSetId current name description options =>
    simp only [Transaction.next] at hnext
    split at hnext <;> cases hnext
  | delete enumSetId =>
    simp only [Transaction.next] at hnext
    split at hnext
    · cases hnext
    · split at hnext <;> cases hnext
  | deleteLocked enumSetId =>
    simp only [Transaction.next] at hnext
    split at hnext <;> cases hnext

/-! ## Any interleaving -/

theorem begins_ok {call : SqlCall} {transaction : Transaction} (h : call.begins = .ok transaction) (tables : Tables) :
    Stands project tables transaction ∧ transaction.lock = none := by
  cases call with
  | replaceScriptParameters scriptId definitions =>
    simp only [SqlCall.begins, bind_eq_ok_iff, pure_eq_ok_iff] at h
    obtain ⟨validated, hvalidated, rfl⟩ := h
    exact ⟨(validateParameterDefinitions_ok hvalidated).typed, rfl⟩
  | updateEnumSet enumSetId expectedVersion name description options =>
    simp only [SqlCall.begins, bind_eq_ok_iff, pure_eq_ok_iff] at h
    obtain ⟨_, -, rfl⟩ := h
    exact ⟨trivial, rfl⟩
  | deleteEnumSet enumSetId =>
    obtain rfl := Except.ok.inj h
    exact ⟨trivial, rfl⟩

theorem Sound.lost {db : Database} (h : Sound project db) (t : Nat) :
    Sound project { db with active := db.active.erase t } :=
  h.ends h.valid fun t' transaction _ hget => h.stands t' transaction hget

theorem Sound.step {db db' : Database} (h : Sound project db) {event : Event} (hskew : NoSkew project db event)
    (hstep : step project db event = some db') : Sound project db' := by
  cases event with
  | call t call =>
    simp only [Database.step] at hstep
    split at hstep
    · cases hstep
    · split at hstep
      · obtain rfl := Option.some.inj hstep
        exact h
      · next transaction hbegins =>
        obtain rfl := Option.some.inj hstep
        obtain ⟨hstands, hlock⟩ := begins_ok hbegins db.tables
        apply h.put hstands
        intro row hrow
        cases hlock.symm.trans hrow
  | go t =>
    simp only [Database.step] at hstep
    split at hstep
    · cases hstep
    · next transaction hget =>
      split at hstep
      · cases hstep
      · next transaction' hnext =>
        obtain rfl := Option.some.inj hstep
        obtain ⟨hstands, hlock⟩ := stands_next (h.stands t transaction hget) hnext
        apply h.put hstands
        intro row hrow
        rcases hlock row hrow with hheld | hfree
        · exact h.free_of_lock hget hheld
        · exact hfree
      · next tables hnext =>
        obtain rfl := Option.some.inj hstep
        exact h.commit hget hnext hskew
      · obtain rfl := Option.some.inj hstep
        exact h.lost t
  | lose t =>
    simp only [Database.step] at hstep
    split at hstep
    · cases hstep
    · obtain rfl := Option.some.inj hstep
      exact h.lost t

/-- Whatever the interleaving, the rows stay valid as long as no commit goes behind a check. -/
theorem enum_parameters_valid_in_sql {tables : Tables} (hvalid : tables.Valid project) {events : List Event}
    {db : Database} (hrun : runSteps (step project) ⟨tables, .empty⟩ events = some db)
    (hskew : Along (step project) (NoSkew project) ⟨tables, .empty⟩ events) : db.tables.Valid project := by
  have hstart : Sound project ⟨tables, .empty⟩ :=
    ⟨hvalid, by simp, by simp⟩
  have hsound := hskew.keeps (I := Sound project) (fun _ _ _ hs hok hstep => hs.step hok hstep) hstart hrun
  exact hsound.valid

/-- A transaction that is alone commits behind nobody. -/
theorem noSkew_of_alone {db : Database} {event : Event} (h : db.active.entries.length ≤ 1) :
    NoSkew project db event := by
  cases event with
  | call | lose => trivial
  | go t =>
    intro transaction tables hget _
    have honly : ∀ t' other, db.active.get? t' = some other → other = transaction := by
      intro t' other hother
      have hfirst := (Dict.get?_eq_some_iff _ _ _).mp hget
      have hsecond := (Dict.get?_eq_some_iff _ _ _).mp hother
      generalize db.active.entries = entries at h hfirst hsecond
      cases entries with
      | nil => cases hfirst
      | cons entry rest =>
        obtain rfl : rest = [] := by simpa using h
        rw [List.mem_singleton] at hfirst hsecond
        exact (Prod.mk.inj (hsecond.trans hfirst.symm)).2
    constructor
    · rintro enumSetId current name description options rfl t' scriptId projectId checked rest loaded hother
      cases honly t' _ hother
    · rintro scriptId projectId checked loaded rfl t' enumSetId current name description options hother
      cases honly t' _ hother

/-- One set of one project, with two options. -/
def sizeTables : Tables where
  enums := Dict.empty.set ⟨"e"⟩ ⟨⟨"e"⟩, ⟨"p"⟩, "size", "", [⟨"one", .int 1⟩, ⟨"two", .int 2⟩], 0⟩
  parameters := .empty

theorem sizeTables_valid : sizeTables.Valid fun _ => some ⟨"p"⟩ :=
  ⟨by simp [sizeTables], by simp [sizeTables]⟩

/-- A script takes the first option as a default. -/
def takeOne : Event := .call 0 (.replaceScriptParameters ⟨"s"⟩ [⟨"size", "Size", .enum, true, some ⟨"e"⟩, .int 1, 0⟩])

/-- The first option is taken away. -/
def dropOne : Event := .call 1 (.updateEnumSet ⟨"e"⟩ 0 "size" "" [⟨"two", .int 2⟩])

/-- The stored set after the parameter has been stored, and whether the first option is in it. -/
def tookOne (kept : Bool) (db : Database) : Bool :=
  db.active.entries.isEmpty &&
    db.tables.parameters.get? ⟨"s"⟩ = some [⟨"size", "Size", .enum, true, some ⟨"e"⟩, .int 1, 0⟩] &&
    (db.tables.enums.get? ⟨"e"⟩).any fun record => record.options.any (·.value = .int 1) == kept

/-- One after the other: the update finds the parameter. -/
theorem size_parameter_valid : ∃ db,
    runSteps (step fun _ => some ⟨"p"⟩) ⟨sizeTables, .empty⟩
      [takeOne, .go 0, .go 0, .go 0, dropOne, .go 1, .go 1] = some db ∧
    db.tables.Valid (fun _ => some ⟨"p"⟩) ∧ tookOne true db = true := by
  have htook : (runSteps (step fun _ => some ⟨"p"⟩) ⟨sizeTables, .empty⟩
      [takeOne, .go 0, .go 0, .go 0, dropOne, .go 1, .go 1]).any (tookOne true) = true := by decide +kernel
  obtain ⟨db, hrun, hdb⟩ := (Option.any_eq_true _ _).mp htook
  have halone : Along (step fun _ => some ⟨"p"⟩) (fun db _ => decide (db.active.entries.length ≤ 1) = true)
      ⟨sizeTables, .empty⟩ [takeOne, .go 0, .go 0, .go 0, dropOne, .go 1, .go 1] :=
    along_of_check (by decide +kernel)
  refine ⟨db, hrun, enum_parameters_valid_in_sql sizeTables_valid hrun (halone.imp ?_), hdb⟩
  exact fun db event h => noSkew_of_alone (by simpa using h)

/-- The update reads the parameters and commits after the set was checked for the new parameter and before that is
committed: both checks pass, and the stored default is not an option. -/
theorem size_parameter_skewed : ∃ db,
    runSteps (step fun _ => some ⟨"p"⟩) ⟨sizeTables, .empty⟩
      [takeOne, .go 0, .go 0, dropOne, .go 1, .go 1, .go 1, .go 0] = some db ∧
    sizeTables.Valid (fun _ => some ⟨"p"⟩) ∧ db.active.entries = [] ∧ ¬ db.tables.Valid (fun _ => some ⟨"p"⟩) := by
  have htook : (runSteps (step fun _ => some ⟨"p"⟩) ⟨sizeTables, .empty⟩
      [takeOne, .go 0, .go 0, dropOne, .go 1, .go 1, .go 1, .go 0]).any (tookOne false) = true := by decide +kernel
  obtain ⟨db, hrun, hdb⟩ := (Option.any_eq_true _ _).mp htook
  simp only [tookOne, Bool.and_eq_true, List.isEmpty_iff, decide_eq_true_eq, Option.any_eq_true, beq_iff_eq] at hdb
  obtain ⟨⟨hactive, hparameters⟩, record, hrecord, hdropped⟩ := hdb
  refine ⟨db, hrun, sizeTables_valid, hactive, ?_⟩
  intro hvalid
  obtain ⟨projectId, -, hrefers⟩ := hvalid.refers _ _ hparameters _ (List.mem_singleton.mpr rfl)
  obtain ⟨stored, hstored, -, option, hoption, identity, hidentity, hone⟩ := hrefers _ rfl
  obtain rfl := Option.some.inj (hrecord.symm.trans hstored)
  have hvalue : option.value = .int 1 := jsonIdentity_inj hidentity hone
  rw [List.any_eq_false] at hdropped
  exact hdropped option hoption (by simp [hvalue])

end Database

end SmartTest.Parameter
