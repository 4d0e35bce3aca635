import SmartTest.Source.Archive

/-!
# What an accepted archive is

The first loop keeps a name for every entry and an entry for every file. The walk over the
ancestors ends, since an accepted path is relative, and meets every ancestor but the path
without parts.
-/

open SmartTest.Lib

namespace SmartTest.Source

variable {f : CaseFolding} {infos : List ZipInfo}

def keyOf (f : CaseFolding) (info : ZipInfo) : String := f.casefold (pathOf info).str

/-- What the first loop has found in the entries it has seen. -/
structure Scanned (f : CaseFolding) (seen : List ZipInfo) (s : Scan) : Prop where
  safe : ∀ info ∈ seen, SafePath (pathOf info) ∧ (pathOf info).str = normalized info.filename
  names : s.names.entries = seen.map fun info => (keyOf f info, ((pathOf info).str, info.isDir))
  entries : s.entries.entries = (fileInfos seen).map fun info => ((pathOf info).str, info)
  total : s.total = ((fileInfos seen).map (·.fileSize)).sum
  bound : s.total ≤ MAX_ARCHIVE_EXPANDED_BYTES

theorem scanned_start : Scanned f [] ⟨.empty, .empty, 0⟩ where
  safe := by simp
  names := rfl
  entries := rfl
  total := rfl
  bound := Nat.zero_le _

theorem Scanned.keys {seen : List ZipInfo} {s : Scan} (h : Scanned f seen s) : s.names.keys = seen.map (keyOf f) := by
  simp [Dict.keys, h.names, Function.comp_def]

theorem Scanned.entryKeys {seen : List ZipInfo} {s : Scan} (h : Scanned f seen s) :
    s.entries.keys = (fileInfos seen).map fun info => (pathOf info).str := by
  simp [Dict.keys, h.entries, Function.comp_def]

/-- What one round of the loop lets through, and what it adds. -/
theorem scanInfo_ok {s s' : Scan} {info : ZipInfo} (h : scanInfo f s info = .ok s') :
    (SafePath (pathOf info) ∧ (pathOf info).str = normalized info.filename) ∧
      s.names.get? (keyOf f info) = none ∧
      s'.names = s.names.set (keyOf f info) ((pathOf info).str, info.isDir) ∧
      ((info.isDir = true ∧ s'.entries = s.entries ∧ s'.total = s.total) ∨
        (info.isDir = false ∧ s'.entries = s.entries.set (pathOf info).str info ∧
          s'.total = s.total + info.fileSize ∧ s'.total ≤ MAX_ARCHIVE_EXPANDED_BYTES)) := by
  simp only [scanInfo, bind_eq_ok_iff, ite_error_eq_ok_iff] at h
  obtain ⟨path, hpath, -, -, hnew, h⟩ := h
  obtain ⟨hparse, hsafe⟩ := archivePath_ok hpath
  have heq : path = pathOf info := hparse
  subst heq
  have hnone : s.names.get? (keyOf f info) = none := by simpa [keyOf] using hnew
  refine ⟨hsafe, hnone, ?_⟩
  split at h
  · next hdir =>
    obtain rfl := Except.ok.inj h
    exact ⟨rfl, .inl ⟨hdir, rfl, rfl⟩⟩
  · next hfile =>
    simp only [ite_error_eq_ok_iff, Except.ok.injEq] at h
    obtain ⟨-, hbound, rfl⟩ := h
    refine ⟨rfl, .inr ⟨by simpa using hfile, rfl, rfl, ?_⟩⟩
    simpa using hbound

theorem Scanned.step {seen : List ZipInfo} {s s' : Scan} {info : ZipInfo} (h : Scanned f seen s)
    (hstep : scanInfo f s info = .ok s') : Scanned f (seen ++ [info]) s' := by
  obtain ⟨hsafe, hnone, hnames, hcase⟩ := scanInfo_ok hstep
  have hsafe' : ∀ other ∈ seen ++ [info], SafePath (pathOf other) ∧ (pathOf other).str = normalized other.filename := by
    rw [List.forall_mem_append]
    exact ⟨h.safe, by simpa using hsafe⟩
  have hnames' : s'.names.entries =
      (seen ++ [info]).map fun info => (keyOf f info, ((pathOf info).str, info.isDir)) := by
    rw [hnames, Dict.entries_set_new _ _ _ hnone, h.names, List.map_append]
    rfl
  rcases hcase with ⟨hdir, hentries, htotal⟩ | ⟨hfile, hentries, htotal, hbound⟩
  · have hfiles : fileInfos (seen ++ [info]) = fileInfos seen := by simp [fileInfos, hdir]
    exact ⟨hsafe', hnames', by rw [hentries, hfiles, h.entries], by rw [htotal, hfiles, h.total],
      by rw [htotal]; exact h.bound⟩
  · have hfiles : fileInfos (seen ++ [info]) = fileInfos seen ++ [info] := by simp [fileInfos, hfile]
    -- An entry of the same path would have left its key among the names.
    have hunseen : s.entries.get? (pathOf info).str = none := by
      rw [Dict.get?_eq_none_iff, h.entryKeys]
      intro hin
      obtain ⟨other, hother, heq⟩ := List.mem_map.mp hin
      rw [Dict.get?_eq_none_iff, h.keys] at hnone
      refine hnone (List.mem_map.mpr ⟨other, (List.mem_filter.mp hother).1, ?_⟩)
      rw [keyOf, keyOf, heq]
    refine ⟨hsafe', hnames', ?_, ?_, hbound⟩
    · rw [hentries, Dict.entries_set_new _ _ _ hunseen, h.entries, hfiles, List.map_append]
      rfl
    · rw [htotal, hfiles, h.total, List.map_append, List.sum_append]
      simp

theorem Scanned.scan {seen : List ZipInfo} {s s' : Scan} (h : Scanned f seen s)
    (hscan : scan f s infos = .ok s') : Scanned f (seen ++ infos) s' := by
  induction infos generalizing seen s with
  | nil =>
    obtain rfl := Except.ok.inj hscan
    simpa using h
  | cons info rest ih =>
    simp only [Source.scan, bind_eq_ok_iff] at hscan
    obtain ⟨t, hstep, hrest⟩ := hscan
    simpa using ih (h.step hstep) hrest

/-! ## The ancestors of a file -/

section Walk

variable {names : Dict String (String × Bool)} {path : PurePosixPath}

/-- The walk ends after as many rounds as the path has parts, whatever the names. -/
theorem ancestorWalk_ends (hpath : path.Relative) {fuel : Nat} (hfuel : path.tail.length < fuel) :
    ancestorWalk f names fuel path ≠ .error .endless := by
  induction fuel generalizing path with
  | zero => omega
  | succ fuel ih =>
    unfold ancestorWalk
    split
    · simp
    · next hstr =>
      have htail : path.tail ≠ [] := fun hnil => hstr (hpath.str_eq_dot.mpr hnil)
      have hpos := List.length_pos_iff.mpr htail
      split
      · simp
      · apply ih hpath.parent
        rw [PurePosixPath.length_parent]
        omega

/-- The walk passes where no ancestor with a part is a file among the names. -/
theorem ancestorWalk_ok (hpath : path.Relative) {fuel : Nat} (h : ancestorWalk f names fuel path = .ok ()) :
    ∀ n, 0 < n → n ≤ path.tail.length → ∀ name,
      names.get? (f.casefold ({ path with tail := path.tail.take n } : PurePosixPath).str) ≠ some (name, false) := by
  induction fuel generalizing path with
  | zero => cases h
  | succ fuel ih =>
    intro n hpos hle name
    have htail : path.tail ≠ [] := List.length_pos_iff.mp (by omega)
    have hstr : path.str ≠ "." := fun heq => htail (hpath.str_eq_dot.mp heq)
    simp only [ancestorWalk, if_neg hstr] at h
    split at h
    · cases h
    · next hfree =>
      by_cases hlast : n = path.tail.length
      · rw [hlast, List.take_length]
        exact hfree name
      · have hshort : n ≤ path.parent.tail.length := by
          rw [PurePosixPath.length_parent]
          omega
        have hrest := ih hpath.parent h n hpos hshort name
        rwa [PurePosixPath.take_parent hshort] at hrest

theorem checkParents_ok {paths : List String} (h : checkParents f names paths = .ok ()) :
    ∀ name ∈ paths, ancestorWalk f names ((PurePosixPath.parse name).tail.length + 1)
      (PurePosixPath.parse name).parent = .ok () := by
  induction paths with
  | nil => simp
  | cons name rest ih =>
    simp only [checkParents, bind_eq_ok_iff] at h
    obtain ⟨_, hwalk, hrest⟩ := h
    exact List.forall_mem_cons.mpr ⟨hwalk, ih hrest⟩

end Walk

/-! ## The payload -/

theorem readChunks_ok {chunks : List Bytes} {actual result : Nat} (h : readChunks actual chunks = .ok result)
    (hactual : actual ≤ MAX_ARCHIVE_EXPANDED_BYTES) :
    result = actual + chunks.flatten.length ∧ result ≤ MAX_ARCHIVE_EXPANDED_BYTES := by
  induction chunks generalizing actual with
  | nil =>
    obtain rfl := Except.ok.inj h
    exact ⟨by simp, hactual⟩
  | cons chunk rest ih =>
    simp only [readChunks, ite_error_eq_ok_iff] at h
    obtain ⟨hresult, hbound⟩ := ih h.2 (by omega)
    refine ⟨?_, hbound⟩
    rw [hresult, List.flatten_cons, List.length_append]
    omega

theorem raiseFault_ok {fault : Option ZipFault} {u : Unit} (h : raiseFault fault = .ok u) : fault = none := by
  cases fault with
  | none => rfl
  | some x => cases h

def Readable (info : ZipInfo) : Prop := info.openFault = none ∧ info.readFault = none

theorem verifyPayload_ok {l : List ZipInfo} {actual result : Nat} (h : verifyPayload actual l = .ok result)
    (hactual : actual ≤ MAX_ARCHIVE_EXPANDED_BYTES) :
    (∀ info ∈ l, Readable info) ∧
      actual + (l.map fun info => info.content.length).sum ≤ MAX_ARCHIVE_EXPANDED_BYTES := by
  induction l generalizing actual with
  | nil => exact ⟨by simp, by simpa using hactual⟩
  | cons info rest ih =>
    simp only [verifyPayload, bind_eq_ok_iff] at h
    obtain ⟨_, hopen, next, hread, _, hfault, hrest⟩ := h
    obtain ⟨rfl, hnext⟩ := readChunks_ok hread hactual
    obtain ⟨hreadable, hbound⟩ := ih hrest hnext
    refine ⟨List.forall_mem_cons.mpr ⟨⟨raiseFault_ok hopen, raiseFault_ok hfault⟩, hreadable⟩, ?_⟩
    rw [List.map_cons, List.sum_cons]
    simp only [ZipInfo.content] at hbound ⊢
    omega

/-! ## The whole check -/

/-- `p` is, up to case folding, a proper ancestor of `q`. -/
def IsAncestor (f : CaseFolding) (p q : PurePosixPath) : Prop :=
  ∃ a ∈ q.parents, f.casefold p.str = f.casefold a.str

structure Accepted (f : CaseFolding) (infos : List ZipInfo) (entries : Dict String ZipInfo) : Prop where
  safe : ∀ info ∈ infos, SafePath (pathOf info) ∧ (pathOf info).str = normalized info.filename
  keys : (infos.map (keyOf f)).Nodup
  entries : entries.entries = (fileInfos infos).map fun info => ((pathOf info).str, info)
  declared : ((fileInfos infos).map (·.fileSize)).sum ≤ MAX_ARCHIVE_EXPANDED_BYTES
  /-- The path without parts is the one ancestor that is not looked up. -/
  ancestors : ∀ a ∈ fileInfos infos, ∀ b ∈ fileInfos infos, (pathOf a).tail ≠ [] →
    ¬ IsAncestor f (pathOf a) (pathOf b)
  files : fileInfos infos ≠ []

theorem scanned_ancestors {s : Scan} (h : Scanned f infos s) (hcheck : checkParents f s.names s.entries.keys = .ok ())
    {a b : ZipInfo} (ha : a ∈ fileInfos infos) (hb : b ∈ fileInfos infos) (htail : (pathOf a).tail ≠ []) :
    ¬ IsAncestor f (pathOf a) (pathOf b) := by
  rintro ⟨ancestor, hin, heq⟩
  obtain ⟨n, hn, rfl⟩ := PurePosixPath.mem_parents.mp hin
  obtain ⟨haIn, haFile⟩ := List.mem_filter.mp ha
  have hrelA := (h.safe a haIn).1.relative
  have hrelB := (h.safe b (List.mem_filter.mp hb).1).1.relative
  have hwalk := checkParents_ok hcheck _ (by
    rw [h.entryKeys]
    exact List.mem_map_of_mem hb)
  rw [hrelB.parse_str] at hwalk
  -- The file is among the names under its key.
  have hname : s.names.get? (keyOf f a) = some ((pathOf a).str, false) := by
    rw [Dict.get?_eq_some_iff, h.names]
    refine List.mem_map.mpr ⟨a, haIn, ?_⟩
    simpa using haFile
  have hpos : 0 < n := by
    rcases Nat.eq_zero_or_pos n with rfl | hpos
    · have hdot : ({ pathOf b with tail := (pathOf b).tail.take 0 } : PurePosixPath).str = "." :=
        (hrelB.take 0).str_eq_dot.mpr rfl
      rw [hdot, f.casefold_dot, hrelA.str_eq_dot] at heq
      exact absurd heq htail
    · exact hpos
  have hshort : n ≤ (pathOf b).parent.tail.length := by
    rw [PurePosixPath.length_parent]
    omega
  have hfree := ancestorWalk_ok hrelB.parent hwalk n hpos hshort (pathOf a).str
  rw [PurePosixPath.take_parent hshort, ← heq] at hfree
  exact hfree hname

theorem acceptEntries_ok {payload : Bool} {entries : Dict String ZipInfo}
    (h : acceptEntries f infos payload = .ok entries) :
    Accepted f infos entries ∧ (payload = true → (∀ info ∈ fileInfos infos, Readable info) ∧
      ((fileInfos infos).map fun info => info.content.length).sum ≤ MAX_ARCHIVE_EXPANDED_BYTES) := by
  simp only [acceptEntries, bind_eq_ok_iff, ite_error_eq_ok_iff] at h
  obtain ⟨s, hscan, _, hcheck, hfiles, h⟩ := h
  have hscanned := (scanned_start (f := f)).scan hscan
  rw [List.nil_append] at hscanned
  have hentries : entries = s.entries := by
    split at h
    · simp only [bind_eq_ok_iff, pure_eq_ok_iff] at h
      obtain ⟨_, _, rfl⟩ := h
      rfl
    · exact (Except.ok.inj h).symm
  subst hentries
  refine ⟨⟨hscanned.safe, ?_, hscanned.entries, ?_, ?_, ?_⟩, ?_⟩
  · rw [← hscanned.keys]
    exact s.names.nodup
  · rw [← hscanned.total]
    exact hscanned.bound
  · intro a ha b hb htail
    exact scanned_ancestors hscanned hcheck ha hb htail
  · intro hnil
    exact hfiles (by rw [hscanned.entryKeys, hnil]; rfl)
  · rintro rfl
    simp only [if_true, bind_eq_ok_iff] at h
    obtain ⟨total, hverify, -⟩ := h
    have hvalues : s.entries.values = fileInfos infos := by
      simp [Dict.values, hscanned.entries, Function.comp_def]
    obtain ⟨hreadable, hbound⟩ := verifyPayload_ok hverify (Nat.zero_le _)
    rw [hvalues] at hreadable hbound
    exact ⟨hreadable, by simpa using hbound⟩

/-- Without the payload check the same entries come out. -/
theorem acceptEntries_unverified {entries : Dict String ZipInfo} (h : acceptEntries f infos true = .ok entries) :
    acceptEntries f infos false = .ok entries := by
  simp only [acceptEntries, bind_eq_ok_iff, ite_error_eq_ok_iff, if_true, pure_eq_ok_iff, Bool.false_eq_true,
    if_false] at h ⊢
  obtain ⟨s, hscan, u, hcheck, hfiles, _, _, hentries⟩ := h
  exact ⟨s, hscan, u, hcheck, hfiles, hentries⟩

end SmartTest.Source
