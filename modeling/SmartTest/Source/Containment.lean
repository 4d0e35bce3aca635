import SmartTest.Source.Workspace

/-!
# An accepted archive stays in its workspace

`_archive_path` means to refuse a single dot and does not: the path it parses has no parts
to refuse. A file of that name stands above every other file.
-/

open SmartTest.Lib

namespace SmartTest.Source

variable {f : CaseFolding} {infos : List ZipInfo} {entries : Dict String ZipInfo} {payload : Bool}

/-! ## How much is read -/

theorem copyChunks_ok {chunks : List Bytes} {copied remaining result : Nat}
    (h : copyChunks copied remaining chunks = .ok result) (hcopied : copied ≤ remaining) :
    result = copied + chunks.flatten.length ∧ result ≤ remaining := by
  induction chunks generalizing copied with
  | nil =>
    obtain rfl := Except.ok.inj h
    exact ⟨by simp, hcopied⟩
  | cons chunk rest ih =>
    simp only [copyChunks, ite_error_eq_ok_iff] at h
    obtain ⟨hresult, hbound⟩ := ih h.2 (by omega)
    refine ⟨?_, hbound⟩
    rw [hresult, List.flatten_cons, List.length_append]
    omega

theorem atomicWriteStream_size {fs : FileSystem} {target : List String} {token : Token} {info : ZipInfo}
    {remaining n : Nat} (h : (atomicWriteStream fs target token info remaining).2 = .ok n) :
    n = info.content.length ∧ n ≤ remaining := by
  simp only [atomicWriteStream] at h
  split at h
  · cases h
  · split at h
    · cases h
    · next heq =>
      obtain rfl := Except.ok.inj h
      simp only [bind_eq_ok_iff, pure_eq_ok_iff] at heq
      obtain ⟨copied, hcopy, _, _, rfl⟩ := heq
      simpa [ZipInfo.content] using copyChunks_ok hcopy (Nat.zero_le _)

theorem extractEntry_size {fs : FileSystem} {root : List String} {token : Token} {name : String} {info : ZipInfo}
    {remaining n : Nat} (h : (extractEntry fs root token remaining name info).2 = .ok n) :
    n = info.content.length ∧ n ≤ remaining := by
  simp only [extractEntry] at h
  split at h
  · cases h
  · split at h
    · cases h
    · split at h
      · cases h
      · split at h
        · cases h
        · exact atomicWriteStream_size h

theorem extractLoop_size {root : List String} {token : Nat → Token} {l : List (String × ZipInfo)} {fs : FileSystem}
    {turn expanded : Nat} (h : (extractLoop root token fs turn expanded l).2 = .ok ())
    (hexpanded : expanded ≤ MAX_ARCHIVE_EXPANDED_BYTES) :
    expanded + (l.map fun e => e.2.content.length).sum ≤ MAX_ARCHIVE_EXPANDED_BYTES := by
  induction l generalizing fs turn expanded with
  | nil => simpa using hexpanded
  | cons e rest ih =>
    obtain ⟨name, info⟩ := e
    simp only [extractLoop] at h
    split at h
    · cases h
    · next fs' copied heq =>
      obtain ⟨rfl, hle⟩ := extractEntry_size (congrArg Prod.snd heq)
      have hrest := ih h (by omega)
      simp only [List.map_cons, List.sum_cons]
      omega

/-! ## Containment -/

structure Contained (f : CaseFolding) (infos : List ZipInfo) (entries : Dict String ZipInfo) (payload : Bool) :
    Prop where
  writes : ∀ (root : List String) (token : Nat → Token) (fs : FileSystem), fs.node root = some .dir →
    fs.written = [] → ∀ path ∈ (extractLoop root token fs 0 0 entries.entries).1.written, StrictlyInside root path
  entrypoint : ∀ value path, entrypoint value = .ok path → ∀ root, StrictlyInside root (root ++ path.parts)
  distinct : (infos.map (keyOf f)).Nodup
  separate : ∀ a ∈ fileInfos infos, ∀ b ∈ fileInfos infos, a ≠ b → ¬ IsAncestor f (pathOf a) (pathOf b)
  declared : ((fileInfos infos).map (·.fileSize)).sum ≤ MAX_ARCHIVE_EXPANDED_BYTES
  verified : payload = true → ((fileInfos infos).map (·.content.length)).sum ≤ MAX_ARCHIVE_EXPANDED_BYTES
  extracted : ∀ root token fs, (extractLoop root token fs 0 0 entries.entries).2 = .ok () →
    ((fileInfos infos).map (·.content.length)).sum ≤ MAX_ARCHIVE_EXPANDED_BYTES
  walks : ∀ info ∈ infos, ∀ names, ∃ bound, ∀ fuel, bound < fuel →
    ancestorWalk f names fuel (PurePosixPath.parse (pathOf info).str).parent ≠ .error .endless

theorem Accepted.entry_safe (h : Accepted f infos entries) :
    ∀ e ∈ entries.entries, SafePath (PurePosixPath.parse e.1) := by
  intro e he
  rw [h.entries] at he
  obtain ⟨info, hinfo, rfl⟩ := List.mem_map.mp he
  obtain ⟨hsafe, -⟩ := h.safe info (List.mem_filter.mp hinfo).1
  rw [hsafe.relative.parse_str]
  exact hsafe

theorem Accepted.sizes (h : Accepted f infos entries) :
    (entries.entries.map fun e => e.2.content.length) = (fileInfos infos).map (·.content.length) := by
  rw [h.entries, List.map_map]
  rfl

/-- The one file whose path has no parts is the one that is named by a dot. -/
theorem Accepted.tail_eq_nil (h : Accepted f infos entries) {info : ZipInfo} (hinfo : info ∈ fileInfos infos) :
    (pathOf info).tail = [] ↔ info.filename = "." := by
  obtain ⟨hin, hfile⟩ := List.mem_filter.mp hinfo
  obtain ⟨hsafe, hstr⟩ := h.safe info hin
  have hnormal : normalized info.filename = info.filename := by
    unfold normalized
    rw [if_neg]
    simpa [ZipInfo.isDir] using hfile
  rw [← hsafe.relative.str_eq_dot, hstr, hnormal]

theorem Accepted.eq_of_key (h : Accepted f infos entries) {a b : ZipInfo} (ha : a ∈ fileInfos infos)
    (hb : b ∈ fileInfos infos) (heq : (pathOf a).str = (pathOf b).str) : a = b := by
  refine List.inj_on_of_nodup_map h.keys (List.mem_filter.mp ha).1 (List.mem_filter.mp hb).1 ?_
  rw [keyOf, keyOf, heq]

theorem eq_singleton_of_forall {α : Type} {l : List α} {a : α} (hnodup : l.Nodup) (ha : a ∈ l)
    (hall : ∀ b ∈ l, b = a) : l = [a] := by
  cases l with
  | nil => simp at ha
  | cons x rest =>
    obtain ⟨rfl, hrest⟩ := List.forall_mem_cons.mp hall
    cases rest with
    | nil => rfl
    | cons y more =>
      obtain rfl := hrest y (by simp)
      simp at hnodup

/-- The dot stands above every other file. -/
theorem isAncestor_dot {p q : PurePosixPath} (hp : p.Relative) (hq : q.Relative) (hdot : p.tail = [])
    (hother : q.tail ≠ []) : IsAncestor f p q := by
  refine ⟨{ q with tail := q.tail.take 0 }, PurePosixPath.mem_parents.mpr ⟨0, List.length_pos_iff.mpr hother, rfl⟩, ?_⟩
  rw [hp.str_eq_dot.mpr hdot, (hq.take 0).str_eq_dot.mpr rfl]

theorem Accepted.contained (h : Accepted f infos entries)
    (hread : payload = true → ((fileInfos infos).map (·.content.length)).sum ≤ MAX_ARCHIVE_EXPANDED_BYTES)
    (hdot : ∀ a ∈ fileInfos infos, a.filename = "." → fileInfos infos = [a]) : Contained f infos entries payload where
  writes root token fs hroot hwritten path hpath := by
    obtain ⟨-, more, hmore, hinside⟩ := inside_extractLoop h.entry_safe hroot token 0 0
    rw [hmore, hwritten, List.nil_append] at hpath
    exact hinside path hpath
  entrypoint value path hvalue root := by
    obtain ⟨hsafe, hne, -⟩ := entrypoint_ok hvalue
    exact ⟨path.tail, hne, hsafe.parts, by rw [parts_eq hsafe.relative]⟩
  distinct := h.keys
  separate a ha b hb hne := by
    apply h.ancestors a ha b hb
    intro htail
    have hsingle := hdot a ha ((h.tail_eq_nil ha).mp htail)
    rw [hsingle, List.mem_singleton] at hb
    exact hne hb.symm
  declared := h.declared
  verified := hread
  extracted root token fs hok := by
    have hsize := extractLoop_size hok (Nat.zero_le _)
    rw [h.sizes] at hsize
    simpa using hsize
  walks info hinfo names := by
    obtain ⟨hsafe, -⟩ := h.safe info hinfo
    rw [hsafe.relative.parse_str]
    exact ⟨_, fun fuel hfuel => ancestorWalk_ends hsafe.relative.parent hfuel⟩

/-- The archive is contained unless a file named by a dot is among several files. -/
theorem contained_iff (f : CaseFolding) (infos : List ZipInfo) (payload : Bool) (entries : Dict String ZipInfo)
    (h : acceptEntries f infos payload = .ok entries) :
    Contained f infos entries payload ↔ ∀ a ∈ fileInfos infos, a.filename = "." → fileInfos infos = [a] := by
  obtain ⟨haccepted, hread⟩ := acceptEntries_ok h
  constructor
  · intro hcontained a ha hname
    have hnodup : (fileInfos infos).Nodup := haccepted.keys.of_map.filter _
    refine eq_singleton_of_forall hnodup ha ?_
    intro b hb
    by_contra hne
    have hrelA := (haccepted.safe a (List.mem_filter.mp ha).1).1.relative
    have hrelB := (haccepted.safe b (List.mem_filter.mp hb).1).1.relative
    have htailA := (haccepted.tail_eq_nil ha).mpr hname
    refine hcontained.separate a ha b hb (Ne.symm hne) (isAncestor_dot hrelA hrelB htailA ?_)
    intro htailB
    refine hne (haccepted.eq_of_key hb ha ?_)
    rw [hrelB.str_eq_dot.mpr htailB, hrelA.str_eq_dot.mpr htailA]
  · exact haccepted.contained fun hpayload => (hread hpayload).2

/-! ## An archive with a dot -/

theorem dot_mem_toLower (c : Char) : '.' ∈ [c.toLower] ↔ c = '.' := by
  simp only [List.mem_singleton]
  unfold Char.toLower
  split
  · next hupper =>
    constructor
    · intro heq
      have hval := congrArg (fun d : Char => d.val.toNat) heq
      have hle := UInt32.le_iff_toNat_le.mp hupper.1
      have hge := UInt32.le_iff_toNat_le.mp hupper.2
      simp [UInt32.toNat_add] at hval hle hge
      omega
    · rintro rfl
      exact absurd hupper (by decide)
  · exact eq_comm

/-- Case folding on ASCII. -/
def asciiFolding : CaseFolding where
  fold c := [c.toLower]
  nonempty c := List.cons_ne_nil _ _
  dot := dot_mem_toLower
  dotAlone := by decide

def emptyFile (name : String) : ZipInfo := ⟨name, 0o600 * 2 ^ 16, 0, 0, none, [], by simp, none⟩

/-- `main.py` and a file named by a dot. -/
def dotInfos : List ZipInfo := [emptyFile "main.py", emptyFile "."]

theorem single_file_contained : ∃ entries,
    acceptEntries asciiFolding [emptyFile "main.py"] true = .ok entries ∧
      Contained asciiFolding [emptyFile "main.py"] entries true := by
  have hok : acceptEntries asciiFolding [emptyFile "main.py"] true =
      .ok (Dict.empty.set "main.py" (emptyFile "main.py")) := by decide +kernel
  exact ⟨_, hok, (contained_iff _ _ _ _ hok).mpr (by decide)⟩

theorem dot_file_not_contained : ∃ entries, acceptEntries asciiFolding dotInfos true = .ok entries ∧
    ¬ Contained asciiFolding dotInfos entries true := by
  have hok : acceptEntries asciiFolding dotInfos true =
      .ok ((Dict.empty.set "main.py" (emptyFile "main.py")).set "." (emptyFile ".")) := by decide +kernel
  refine ⟨_, hok, ?_⟩
  intro hcontained
  refine hcontained.separate (emptyFile ".") (by decide) (emptyFile "main.py") (by decide) (by decide) ?_
  exact ⟨⟨"", []⟩, by decide, rfl⟩

end SmartTest.Source
