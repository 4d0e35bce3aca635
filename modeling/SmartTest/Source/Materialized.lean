import SmartTest.Source.Containment
import SmartTest.Source.Store

/-!
# A stored archive can be materialized

The files are written one after another into an empty directory. No path is in the way of
another, except that a file named by a dot is in the way of itself: it would have to be
written where the workspace is.
-/

open SmartTest.Lib SmartTest.Run

namespace SmartTest.Source

def tailOf (info : ZipInfo) : List String := (pathOf info).tail

/-- A file at the path of each file, a directory on the way to it, and nothing else. -/
def expected (files : List ZipInfo) (parts : List String) : Option FsNode :=
  match files.find? (fun info => tailOf info = parts) with
  | some info => some (.file info.content)
  | none => if files.any (fun info => parts.isPrefixOf (tailOf info)) then some .dir else none

/-- Below `root` stands what the files make, and no more. -/
def Holds (fs : FileSystem) (root : List String) (files : List ZipInfo) : Prop :=
  ∀ parts, parts ≠ [] → fs.node (root ++ parts) = expected files parts

/-- Neither path is on the way to the other. -/
def Apart (a b : ZipInfo) : Prop := ¬ tailOf a <+: tailOf b ∧ ¬ tailOf b <+: tailOf a

variable {f : CaseFolding} {infos files : List ZipInfo} {entries : Dict String ZipInfo}
  {root : List String} {fs : FileSystem} {info : ZipInfo} {parts : List String}

/-! ## What is expected -/

theorem find_eq_none (h : ∀ a ∈ files, tailOf a ≠ parts) : files.find? (fun a => tailOf a = parts) = none := by
  rw [List.find?_eq_none]
  intro a ha
  simpa using h a ha

theorem expected_of_apart (happart : ∀ a ∈ files, Apart a info) : expected files (tailOf info) = none := by
  unfold expected
  have hfind : files.find? (fun a => tailOf a = tailOf info) = none := by
    apply find_eq_none
    intro a ha heq
    apply (happart a ha).1
    rw [heq]
  have hany : files.any (fun a => (tailOf info).isPrefixOf (tailOf a)) = false := by
    rw [List.any_eq_false]
    intro a ha
    rw [List.isPrefixOf_iff_prefix]
    exact (happart a ha).2
  simp [hfind, hany]

/-- On the way to a new file there is a directory or nothing. -/
theorem expected_above (happart : ∀ a ∈ files, Apart a info) (h : parts <+: tailOf info) :
    expected files parts = some .dir ∨ expected files parts = none := by
  unfold expected
  have hfind : files.find? (fun a => tailOf a = parts) = none := by
    apply find_eq_none
    intro a ha heq
    apply (happart a ha).1
    rw [heq]
    exact h
  rw [hfind]
  dsimp only
  split
  · exact .inl rfl
  · exact .inr rfl

theorem expected_append (happart : ∀ a ∈ files, Apart a info) (parts : List String) :
    expected (files ++ [info]) parts = if parts = tailOf info then some (.file info.content)
      else if parts <+: tailOf info then some .dir else expected files parts := by
  unfold expected
  by_cases hself : parts = tailOf info
  · have hfind : files.find? (fun a => tailOf a = parts) = none := by
      apply find_eq_none
      intro a ha heq
      apply (happart a ha).1
      rw [heq, hself]
    rw [if_pos hself, List.find?_append, hfind]
    simp [hself]
  · rw [if_neg hself, List.find?_append]
    have hlast : [info].find? (fun a => tailOf a = parts) = none := by
      apply find_eq_none
      simpa using Ne.symm hself
    rw [hlast, Option.or_none, List.any_append]
    by_cases habove : parts <+: tailOf info
    · have hfind : files.find? (fun a => tailOf a = parts) = none := by
        apply find_eq_none
        intro a ha heq
        apply (happart a ha).1
        rw [heq]
        exact habove
      have hbool : parts.isPrefixOf (tailOf info) = true := List.isPrefixOf_iff_prefix.mpr habove
      simp [hfind, habove, hbool]
    · have hbool : parts.isPrefixOf (tailOf info) = false := by
        rw [← Bool.not_eq_true, List.isPrefixOf_iff_prefix]
        exact habove
      simp [habove, hbool]

/-! ## One entry -/

/-- `fs'` has the directories on the way from `current` along `parts`, and is `fs` elsewhere. -/
structure Paved (fs fs' : FileSystem) (current parts : List String) : Prop where
  dirs : ∀ above, above ≠ [] → above <+: parts → fs'.node (current ++ above) = some .dir
  others : ∀ path, (∀ above, above ≠ [] → above <+: parts → path ≠ current ++ above) → fs'.node path = fs.node path

theorem Paved.cons {next fs' : FileSystem} {current : List String} {part : String}
    (hnode : ∀ path, next.node path = if path = current ++ [part] then some .dir else fs.node path)
    (h : Paved next fs' (current ++ [part]) parts) : Paved fs fs' current (part :: parts) where
  dirs above hne hle := by
    cases above with
    | nil => exact absurd rfl hne
    | cons a more =>
      obtain ⟨rfl, hmore⟩ := List.cons_prefix_cons.mp hle
      by_cases hnil : more = []
      · subst hnil
        rw [h.others _ (by
          intro above habove _ heq
          exact habove (by simpa using heq)), hnode, if_pos rfl]
      · have hdir := h.dirs more hnil hmore
        rwa [List.append_assoc] at hdir
  others path hpath := by
    rw [h.others path, hnode, if_neg]
    · exact hpath [part] (by simp) (by simp)
    · intro above _ hle heq
      refine hpath (part :: above) (by simp) (List.cons_prefix_cons.mpr ⟨rfl, hle⟩) ?_
      rw [heq, List.append_assoc]
      rfl

theorem safeArchiveParent_ok {current : List String}
    (h : ∀ above, above ≠ [] → above <+: parts →
      fs.node (current ++ above) = some .dir ∨ fs.node (current ++ above) = none) :
    ∃ fs', safeArchiveParent fs current parts = (fs', .ok ()) ∧ Paved fs fs' current parts := by
  induction parts generalizing fs current with
  | nil => exact ⟨fs, rfl, fun above hne hle => absurd (List.prefix_nil.mp hle) hne, fun _ _ => rfl⟩
  | cons part rest ih =>
    -- Once this part is a directory, the rest of the way is as before.
    have hnext : ∀ next : FileSystem,
        (∀ path, next.node path = if path = current ++ [part] then some .dir else fs.node path) →
        ∃ fs', safeArchiveParent next (current ++ [part]) rest = (fs', .ok ()) ∧ Paved fs fs' current (part :: rest) := by
      intro next hnode
      have hrest : ∀ above, above ≠ [] → above <+: rest →
          next.node (current ++ [part] ++ above) = some .dir ∨ next.node (current ++ [part] ++ above) = none := by
        intro above hne hle
        have hlonger : current ++ [part] ++ above ≠ current ++ [part] := by simpa using hne
        rw [hnode, if_neg hlonger, List.append_assoc]
        exact h ([part] ++ above) (by simp) (by simpa using hle)
      obtain ⟨fs', hrun, hpaved⟩ := ih hrest
      exact ⟨fs', hrun, .cons hnode hpaved⟩
    unfold safeArchiveParent
    rcases h [part] (by simp) (by simp) with hdir | hnone
    · rw [hdir]
      apply hnext
      intro path
      split
      · next heq => rw [heq, hdir]
      · rfl
    · rw [hnone]
      apply hnext
      intro path
      simp only [FileSystem.put, Function.update_apply]

theorem atomicWriteStream_ok {target : List String} {token : Token} {remaining : Nat} (hread : Readable info)
    (hsize : info.content.length ≤ remaining) (hos : (atomicWriteStream fs target token info remaining).2 ≠ .error .os) :
    ∃ fs', atomicWriteStream fs target token info remaining = (fs', .ok info.content.length) ∧
      ∀ path, fs'.node path = if path = target then some (.file info.content) else fs.node path := by
  have hcopy : ∀ (chunks : List Bytes) (copied : Nat), copied + chunks.flatten.length ≤ remaining →
      copyChunks copied remaining chunks = .ok (copied + chunks.flatten.length) := by
    intro chunks
    induction chunks with
    | nil => intro copied _; rfl
    | cons chunk rest ih =>
      intro copied hle
      rw [List.flatten_cons, List.length_append] at hle ⊢
      unfold copyChunks
      rw [if_neg (by omega), ih _ (by omega), Nat.add_assoc]
  have hcopied := hcopy info.chunks 0 (by simpa [ZipInfo.content] using hsize)
  rw [Nat.zero_add] at hcopied
  simp only [atomicWriteStream, hcopied, hread.2, raiseFault, ok_bind] at hos ⊢
  split at hos
  · simp at hos
  · next hfree =>
    rw [if_neg hfree]
    refine ⟨_, rfl, fun path => ?_⟩
    simp only [FileSystem.put, FileSystem.remove, Function.update_apply]
    split
    · rfl
    · split
      · next heq =>
        rw [heq]
        exact (Option.not_isSome_iff_eq_none.mp hfree).symm
      · rfl

/-- A new file joins those already there. -/
theorem Holds.extractEntry {name : String} {token : Token} {remaining : Nat} (h : Holds fs root files)
    (hname : PurePosixPath.parse name = pathOf info) (hpath : (pathOf info).Relative) (hne : tailOf info ≠ [])
    (happart : ∀ a ∈ files, Apart a info) (hread : Readable info) (hsize : info.content.length ≤ remaining)
    (hos : (extractEntry fs root token remaining name info).2 ≠ .error .os) :
    ∃ fs', extractEntry fs root token remaining name info = (fs', .ok info.content.length) ∧
      Holds fs' root (files ++ [info]) := by
  have habove : ∀ above, above ≠ [] → above <+: (tailOf info).dropLast →
      fs.node (root ++ above) = some .dir ∨ fs.node (root ++ above) = none := by
    intro above habove hle
    rw [h above habove]
    exact expected_above happart (hle.trans (List.dropLast_prefix _))
  obtain ⟨paved, hparent, hpaved⟩ := safeArchiveParent_ok habove
  have hfree : paved.node (root ++ tailOf info) = none := by
    rw [hpaved.others _ (by
      intro above _ hle heq
      have hlen := hle.length_le
      rw [← List.append_cancel_left heq, List.length_dropLast] at hlen
      have hpos := List.length_pos_iff.mpr hne
      omega), h _ hne]
    exact expected_of_apart happart
  have hentry : Source.extractEntry fs root token remaining name info =
      atomicWriteStream paved (root ++ tailOf info) token info remaining := by
    have htail : (pathOf info).tail = tailOf info := rfl
    simp only [Source.extractEntry, hname, parts_eq hpath, htail, relativeTo_parent hne, hparent, hfree, hread.1,
      Option.isSome_none, Bool.false_eq_true, if_false]
  rw [hentry] at hos ⊢
  obtain ⟨fs', hwrite, hnode⟩ := atomicWriteStream_ok hread hsize hos
  refine ⟨fs', hwrite, fun parts hparts => ?_⟩
  rw [hnode, expected_append happart]
  simp only [List.append_cancel_left_eq]
  by_cases hself : parts = tailOf info
  · rw [if_pos hself, if_pos hself]
  · rw [if_neg hself, if_neg hself]
    by_cases hway : parts <+: tailOf info
    · rw [if_pos hway]
      -- A proper ancestor is an ancestor of the parent, or the parent.
      apply hpaved.dirs parts hparts
      obtain ⟨more, hmore⟩ := hway
      have hmorene : more ≠ [] := by
        rintro rfl
        exact hself (by simpa using hmore)
      rw [← hmore, List.dropLast_append_of_ne_nil hmorene]
      exact List.prefix_append _ _
    · rw [if_neg hway, hpaved.others, h parts hparts]
      intro above _ hle heq
      rw [List.append_cancel_left heq] at hway
      exact hway (hle.trans (List.dropLast_prefix _))

/-! ## The whole archive -/

theorem Holds.extractLoop {rest : List ZipInfo} {token : Nat → Token} {turn expanded : Nat} (h : Holds fs root files)
    (hpaths : ∀ a ∈ rest, (pathOf a).Relative ∧ tailOf a ≠ [] ∧ Readable a)
    (happart : (files ++ rest).Pairwise Apart)
    (hsize : expanded + (rest.map (·.content.length)).sum ≤ MAX_ARCHIVE_EXPANDED_BYTES)
    (hos : (extractLoop root token fs turn expanded (rest.map fun a => ((pathOf a).str, a))).2 ≠ .error .os) :
    ∃ fs', extractLoop root token fs turn expanded (rest.map fun a => ((pathOf a).str, a)) = (fs', .ok ()) ∧
      Holds fs' root (files ++ rest) := by
  induction rest generalizing fs files turn expanded with
  | nil => exact ⟨fs, rfl, by simpa using h⟩
  | cons info rest ih =>
    obtain ⟨⟨hpath, hne, hread⟩, hrest⟩ := List.forall_mem_cons.mp hpaths
    rw [List.map_cons, List.sum_cons] at hsize
    have hfirst : ∀ a ∈ files, Apart a info := by
      intro a ha
      exact (List.pairwise_append.mp happart).2.2 a ha info (by simp)
    rw [List.map_cons] at hos ⊢
    simp only [Source.extractLoop] at hos ⊢
    have hentryOs : (Source.extractEntry fs root (token turn) (MAX_ARCHIVE_EXPANDED_BYTES - expanded)
        (pathOf info).str info).2 ≠ .error .os := by
      intro herror
      generalize Source.extractEntry fs root (token turn) (MAX_ARCHIVE_EXPANDED_BYTES - expanded)
        (pathOf info).str info = result at herror hos
      obtain ⟨after, outcome⟩ := result
      dsimp only at herror
      subst herror
      simp at hos
    obtain ⟨fs', hentry, hholds⟩ := h.extractEntry hpath.parse_str hpath hne hfirst hread (by omega) hentryOs
    rw [hentry] at hos ⊢
    dsimp only at hos ⊢
    obtain ⟨fs'', hloop, hall⟩ := ih hholds hrest (by simpa using happart) (by omega) hos
    exact ⟨fs'', hloop, by simpa using hall⟩

theorem Accepted.apart (h : Accepted f infos entries) (hdot : ∀ a ∈ fileInfos infos, a.filename ≠ ".") :
    (fileInfos infos).Pairwise Apart := by
  have hnodup : (fileInfos infos).Nodup := h.keys.of_map.filter _
  have hoff : ∀ a ∈ fileInfos infos, ∀ b ∈ fileInfos infos, a ≠ b → ¬ tailOf a <+: tailOf b := by
    intro a ha b hb hne hle
    have hrelA := (h.safe a (List.mem_filter.mp ha).1).1.relative
    have hrelB := (h.safe b (List.mem_filter.mp hb).1).1.relative
    have htail : (pathOf a).tail ≠ [] := fun hnil => hdot a ha ((h.tail_eq_nil ha).mp hnil)
    have hsame : pathOf a = { pathOf b with tail := (pathOf b).tail.take (tailOf a).length } := by
      have htake := List.prefix_iff_eq_take.mp hle
      have hroots : (pathOf a).root = (pathOf b).root := hrelA.root.trans hrelB.root.symm
      cases hpath : pathOf a with
      | mk root tail =>
        simp only [hpath, tailOf] at htake hroots ⊢
        simp only [PurePosixPath.mk.injEq]
        exact ⟨hroots, htake⟩
    rcases Nat.lt_or_ge (tailOf a).length (tailOf b).length with hlt | hge
    · exact h.ancestors a ha b hb htail ⟨pathOf a, PurePosixPath.mem_parents.mpr ⟨_, hlt, hsame⟩, rfl⟩
    · refine hne (h.eq_of_key ha hb ?_)
      rw [hsame]
      show PurePosixPath.str ⟨(pathOf b).root, (tailOf b).take (tailOf a).length⟩ = _
      rw [List.take_of_length_le hge]
      rfl
  refine hnodup.imp_of_mem ?_
  intro a b ha hb hne
  exact ⟨hoff a ha b hb hne, hoff b hb a ha (Ne.symm hne)⟩

/-- A path without parts ends the extraction. -/
theorem extractLoop_dot {l : List (String × ZipInfo)} {token : Nat → Token} {turn expanded : Nat}
    (hnames : ∀ e ∈ l, SafePath (PurePosixPath.parse e.1)) (hroot : fs.node root = some .dir) {e : String × ZipInfo}
    (he : e ∈ l) (hdot : (PurePosixPath.parse e.1).tail = []) :
    (extractLoop root token fs turn expanded l).2 ≠ .ok () := by
  induction l generalizing fs turn expanded with
  | nil => simp at he
  | cons first rest ih =>
    obtain ⟨name, info⟩ := first
    obtain ⟨hname, hrest⟩ := List.forall_mem_cons.mp hnames
    have hinside := inside_extractEntry hname hroot (token turn) (MAX_ARCHIVE_EXPANDED_BYTES - expanded) info
    simp only [Source.extractLoop]
    split
    · simp
    · next fs' copied heq =>
      rw [heq] at hinside
      rcases List.mem_cons.mp he with rfl | hin
      · have hfails : (Source.extractEntry fs root (token turn) (MAX_ARCHIVE_EXPANDED_BYTES - expanded) name info).2 ≠
            .ok copied := by
          simp only [Source.extractEntry, parts_eq hname.relative, hdot, List.append_nil]
          split
          · simp
          · next parents hparents =>
            have hempty : parents = [] := relativeTo_root hparents
            subst hempty
            simp [safeArchiveParent, hroot]
        rw [heq] at hfails
        exact absurd rfl hfails
      · exact ih hrest (hinside.1.trans hroot) hin

/-! ## From the upload to the workspace -/

theorem catchZip_ok {α : Type} {x : Except SourceError α} {a : α} (h : catchZip x = .ok a) : x = .ok a := by
  unfold catchZip at h
  split at h
  · cases h
  · exact h

theorem archiveEntries_ok {world : SourceWorld} {content : Bytes} {payload : Bool} {entries : Dict String ZipInfo}
    (h : archiveEntries world content payload = .ok entries) :
    ∃ infos, world.zipFile content = .ok infos ∧ acceptEntries world.folding infos payload = .ok entries := by
  have hinner := catchZip_ok h
  split at hinner
  · cases hinner
  · next infos hzip => exact ⟨infos, hzip, hinner⟩

variable {world : SourceWorld} {store store' : LocalSourceStore} {project : ProjectId} {content : Bytes}
  {saved : StoredSource}

theorem putArchive_ok (h : putArchive world store project content = .ok (saved, store')) :
    content.length ≤ MAX_ARCHIVE_BYTES ∧ (saved, store') = putBytes world store project content .v2 ∧
      ∃ infos entries, world.zipFile content = .ok infos ∧ acceptEntries world.folding infos true = .ok entries := by
  simp only [putArchive, ite_error_eq_ok_iff, bind_eq_ok_iff, pure_eq_ok_iff] at h
  obtain ⟨hsize, entries, hentries, hstored⟩ := h
  obtain ⟨infos, hzip, haccepted⟩ := archiveEntries_ok hentries
  refine ⟨?_, hstored.symm, infos, entries, hzip, haccepted⟩
  simp only [Bool.or_eq_true, decide_eq_true_eq, not_or] at hsize
  omega

theorem putArchive_of_accepted {infos : List ZipInfo} {entries : Dict String ZipInfo} (hne : content ≠ [])
    (hlen : content.length ≤ MAX_ARCHIVE_BYTES) (hzip : world.zipFile content = .ok infos)
    (haccepted : acceptEntries world.folding infos true = .ok entries) :
    putArchive world store project content = .ok (putBytes world store project content .v2) := by
  have hsize : (content = [] || content.length > MAX_ARCHIVE_BYTES) = false := by
    simp [hne, hlen]
  simp only [putArchive, hsize, Bool.false_eq_true, if_false, archiveEntries, hzip, haccepted, catchZip]
  rfl

theorem reference_not_host (project : ProjectId) (digest : String) (version : SourceVersion) :
    "host-source:".toList.isPrefixOf (reference project digest version).toList = false := by
  unfold reference
  rw [List.intercalate_cons_cons]
  simp [List.isPrefixOf]

/-- An entrypoint is valid that names a file of the archive. -/
theorem validateReference_iff {value : String} {infos : List ZipInfo} {entries : Dict String ZipInfo}
    (hlen : content.length ≤ MAX_ARCHIVE_BYTES) (hzip : world.zipFile content = .ok infos)
    (haccepted : acceptEntries world.folding infos true = .ok entries) :
    validateReference world (putBytes world store project content .v2).2 project
      (putBytes world store project content .v2).1.sourceRef (putBytes world store project content .v2).1.contentDigest
      value = .ok () ↔
    ∃ relative, entrypoint value = .ok relative ∧ relative.str ∈ entries.keys := by
  show validateReference world (putBytes world store project content .v2).2 project
    (reference project (world.sha256 content).text .v2) (world.sha256 content).text value = .ok () ↔ _
  have hverified := verifiedContent_putBytes world store project content .v2 hlen
  have hentries : archiveEntries world content false = .ok entries := by
    simp only [archiveEntries, hzip, acceptEntries_unverified haccepted, catchZip]
  simp only [validateReference, reference_not_host, Bool.false_eq_true, if_false, parseReference_reference, ok_bind,
    ne_eq, not_true_eq_false, or_self, contentLimit, bind_eq_ok_iff, hverified, if_true, hentries]
  constructor
  · rintro ⟨relative, hrelative, hin⟩
    refine ⟨relative, hrelative, ?_⟩
    split at hin
    · next hmem => exact hmem
    · cases hin
  · rintro ⟨relative, hrelative, hin⟩
    exact ⟨relative, hrelative, if_pos hin⟩

theorem makeDirectories_dir (h : fs.node root = some .dir) : makeDirectories fs root.reverse = (fs, .ok ()) := by
  cases hparts : root.reverse with
  | nil => rfl
  | cons part above =>
    have hnode : fs.node (part :: above).reverse = some .dir := by
      rw [← hparts, List.reverse_reverse]
      exact h
    simp only [makeDirectories, hnode]

/-- Materializing comes down to the extraction. -/
theorem materialize_eq {value : String} {infos : List ZipInfo} {entries : Dict String ZipInfo}
    {relative : PurePosixPath} {workspace : List String} {token : Nat → Token}
    (hlen : content.length ≤ MAX_ARCHIVE_BYTES) (hzip : world.zipFile content = .ok infos)
    (haccepted : acceptEntries world.folding infos true = .ok entries) (hrelative : entrypoint value = .ok relative)
    (hin : relative.str ∈ entries.keys) (hroot : fs.node (world.resolve fs workspace) = some .dir) :
    materialize world (putBytes world store project content .v2).2 fs project
        (putBytes world store project content .v2).1.sourceRef (putBytes world store project content .v2).1.contentDigest
        value workspace token =
      match extractLoop (world.resolve fs workspace) token fs 0 0 entries.entries with
      | (fs', .error e) => (fs', .error e)
      | (fs', .ok ()) => (fs', .ok (world.resolve fs workspace ++ relative.parts)) := by
  show materialize world (putBytes world store project content .v2).2 fs project
    (reference project (world.sha256 content).text .v2) (world.sha256 content).text value workspace token = _
  have hverified := verifiedContent_putBytes world store project content .v2 hlen
  have hentries : archiveEntries world content false = .ok entries := by
    simp only [archiveEntries, hzip, acceptEntries_unverified haccepted, catchZip]
  have hsource : materialSource world (putBytes world store project content .v2).2 project
      (reference project (world.sha256 content).text .v2) (world.sha256 content).text value =
        .ok (.v2, relative, content) := by
    simp only [materialSource, parseReference_reference, ok_bind, ne_eq, not_true_eq_false, if_false,
      (world.sha256 content).hex, Bool.true_eq_false, hrelative, contentLimit, hverified]
    rfl
  simp only [materialize, hsource, makeDirectories_dir hroot, extractArchive, hentries]
  generalize extractLoop (world.resolve fs workspace) token fs 0 0 entries.entries = result
  obtain ⟨fs', outcome⟩ := result
  cases outcome with
  | error e => rfl
  | ok u => simp [hin]

/-- An uploaded archive is materialized as it is unless it has a file named by a dot. -/
theorem materializes_iff (world : SourceWorld) (store store' : LocalSourceStore) (project : ProjectId)
    (content : Bytes) (saved : StoredSource) (value : String) (fs : FileSystem) (workspace : List String)
    (token : Nat → Token) (hput : putArchive world store project content = .ok (saved, store'))
    (hvalid : validateReference world store' project saved.sourceRef saved.contentDigest value = .ok ())
    (hroot : fs.node (world.resolve fs workspace) = some .dir)
    (hempty : ∀ parts, parts ≠ [] → fs.node (world.resolve fs workspace ++ parts) = none)
    (hio : (materialize world store' fs project saved.sourceRef saved.contentDigest value workspace token).2 ≠
      .error .os) :
    ∃ infos, world.zipFile content = .ok infos ∧
      ((∃ target,
          (materialize world store' fs project saved.sourceRef saved.contentDigest value workspace token).2 =
            .ok target ∧
          Holds (materialize world store' fs project saved.sourceRef saved.contentDigest value workspace token).1
            (world.resolve fs workspace) (fileInfos infos)) ↔
        ∀ info ∈ fileInfos infos, info.filename ≠ ".") := by
  obtain ⟨hlen, hstored, infos, entries, hzip, haccepted⟩ := putArchive_ok hput
  obtain rfl : saved = (putBytes world store project content .v2).1 := congrArg Prod.fst hstored
  obtain rfl : store' = (putBytes world store project content .v2).2 := congrArg Prod.snd hstored
  obtain ⟨relative, hrelative, hin⟩ := (validateReference_iff hlen hzip haccepted).mp hvalid
  rw [materialize_eq hlen hzip haccepted hrelative hin hroot] at hio
  refine ⟨infos, hzip, ?_⟩
  rw [materialize_eq hlen hzip haccepted hrelative hin hroot]
  obtain ⟨hfacts, hpayload⟩ := acceptEntries_ok haccepted
  obtain ⟨hreadable, hbound⟩ := hpayload rfl
  constructor
  · rintro ⟨target, hok, -⟩ info hinfo hname
    have htail := (hfacts.tail_eq_nil hinfo).mpr hname
    have hrel := (hfacts.safe info (List.mem_filter.mp hinfo).1).1.relative
    have hmem : ((pathOf info).str, info) ∈ entries.entries := by
      rw [hfacts.entries]
      exact List.mem_map_of_mem hinfo
    have hfails : (extractLoop (world.resolve fs workspace) token fs 0 0 entries.entries).2 ≠ .ok () :=
      extractLoop_dot hfacts.entry_safe hroot hmem (by rw [hrel.parse_str]; exact htail)
    apply hfails
    generalize extractLoop (world.resolve fs workspace) token fs 0 0 entries.entries = result at hok
    obtain ⟨fs', outcome⟩ := result
    cases outcome with
    | error e => simp at hok
    | ok u => rfl
  · intro hdot
    have hstart : Holds fs (world.resolve fs workspace) [] := by
      intro parts hparts
      rw [hempty parts hparts]
      rfl
    have hpaths : ∀ a ∈ fileInfos infos, (pathOf a).Relative ∧ tailOf a ≠ [] ∧ Readable a := by
      intro a ha
      exact ⟨(hfacts.safe a (List.mem_filter.mp ha).1).1.relative,
        fun hnil => hdot a ha ((hfacts.tail_eq_nil ha).mp hnil), hreadable a ha⟩
    rw [hfacts.entries] at hio ⊢
    have hos : (extractLoop (world.resolve fs workspace) token fs 0 0
        ((fileInfos infos).map fun a => ((pathOf a).str, a))).2 ≠ .error .os := by
      generalize extractLoop (world.resolve fs workspace) token fs 0 0
        ((fileInfos infos).map fun a => ((pathOf a).str, a)) = result at hio
      obtain ⟨fs', outcome⟩ := result
      cases outcome with
      | error e => simpa using hio
      | ok u => simp
    obtain ⟨fs', hloop, hholds⟩ := hstart.extractLoop hpaths (by simpa using hfacts.apart hdot)
      (by simpa using hbound) hos
    rw [hloop]
    exact ⟨_, rfl, by simpa using hholds⟩

/-! ## Two uploads -/

/-- A ZIP of an empty `main.py`. -/
def mainZip : Bytes :=
  [80, 75, 3, 4, 20, 0, 0, 0, 0, 0, 0, 0, 33, 0, 0, 0, 0, 0, 0, 0, 0, 0, 0, 0, 0, 0, 7, 0, 0, 0, 109, 97,
    105, 110, 46, 112, 121, 80, 75, 1, 2, 20, 3, 20, 0, 0, 0, 0, 0, 0, 0, 33, 0, 0, 0, 0, 0, 0, 0, 0, 0, 0,
    0, 0, 0, 7, 0, 0, 0, 0, 0, 0, 0, 0, 0, 0, 0, 128, 1, 0, 0, 0, 0, 109, 97, 105, 110, 46, 112, 121, 80,
    75, 5, 6, 0, 0, 0, 0, 1, 0, 1, 0, 53, 0, 0, 0, 37, 0, 0, 0, 0, 0]

/-- A ZIP of an empty `main.py` and an empty file named by a dot. -/
def dotZip : Bytes :=
  [80, 75, 3, 4, 20, 0, 0, 0, 0, 0, 0, 0, 33, 0, 0, 0, 0, 0, 0, 0, 0, 0, 0, 0, 0, 0, 7, 0, 0, 0, 109, 97,
    105, 110, 46, 112, 121, 80, 75, 3, 4, 20, 0, 0, 0, 0, 0, 0, 0, 33, 0, 0, 0, 0, 0, 0, 0, 0, 0, 0, 0, 0,
    0, 1, 0, 0, 0, 46, 80, 75, 1, 2, 20, 3, 20, 0, 0, 0, 0, 0, 0, 0, 33, 0, 0, 0, 0, 0, 0, 0, 0, 0, 0, 0,
    0, 0, 7, 0, 0, 0, 0, 0, 0, 0, 0, 0, 0, 0, 128, 1, 0, 0, 0, 0, 109, 97, 105, 110, 46, 112, 121, 80, 75,
    1, 2, 20, 3, 20, 0, 0, 0, 0, 0, 0, 0, 33, 0, 0, 0, 0, 0, 0, 0, 0, 0, 0, 0, 0, 0, 1, 0, 0, 0, 0, 0, 0,
    0, 0, 0, 0, 0, 128, 1, 37, 0, 0, 0, 46, 80, 75, 5, 6, 0, 0, 0, 0, 2, 0, 2, 0, 100, 0, 0, 0, 68, 0, 0,
    0, 0, 0]

def mainDigest : Digest := ⟨"cb46a7d5efa28b533ce288c63c6ad89fa36d5ce62ad1be38c4ca22ca923fc19f", by decide⟩

def dotDigest : Digest := ⟨"f5fe768d0480d57f0f2944f5c838ec52d240a46e58721d4dfe52e2364d33b5ab", by decide⟩

/-- A world in which one upload is read. -/
def sampleWorld (digest : Digest) (infos : List ZipInfo) : SourceWorld where
  sha256 _ := digest
  zipFile _ := .ok infos
  folding := asciiFolding
  resolve _ path := path
  resolveHostReference _ _ _ _ := .error (.store "host execution is disabled")

def mainWorld : SourceWorld := sampleWorld mainDigest [emptyFile "main.py"]

def dotWorld : SourceWorld := sampleWorld dotDigest dotInfos

def sampleProject : ProjectId := ⟨⟨"5f0f7a5e-6a0d-4f43-9d21-0c4f8b1a2e33"⟩, by decide⟩

def sampleStore : LocalSourceStore := ⟨MAX_SOURCE_BYTES, .empty⟩

/-- An empty directory `work`. -/
def sampleFiles : FileSystem := ⟨fun path => if path = [] ∨ path = ["work"] then some .dir else none, []⟩

def sampleToken (_ : Nat) : Token := ⟨"0123456789abcdef0123456789abcdef", by simp⟩

theorem sampleFiles_empty : ∀ parts, parts ≠ [] → sampleFiles.node (["work"] ++ parts) = none := by
  intro parts hparts
  simp [sampleFiles, hparts]

def mainStored : StoredSource × LocalSourceStore := putBytes mainWorld sampleStore sampleProject mainZip .v2

def dotStored : StoredSource × LocalSourceStore := putBytes dotWorld sampleStore sampleProject dotZip .v2

/-- A stored upload in the directory `work`, run from `main.py`. -/
def materialized (world : SourceWorld) (stored : StoredSource × LocalSourceStore) :
    FileSystem × Except SourceError (List String) :=
  materialize world stored.2 sampleFiles sampleProject stored.1.sourceRef stored.1.contentDigest "main.py" ["work"]
    sampleToken

theorem main_materializes :
    putArchive mainWorld sampleStore sampleProject mainZip = .ok mainStored ∧
      ∃ target, (materialized mainWorld mainStored).2 = .ok target ∧
        Holds (materialized mainWorld mainStored).1 ["work"] [emptyFile "main.py"] := by
  have hlen : mainZip.length ≤ MAX_ARCHIVE_BYTES := by decide +kernel
  have haccepted : acceptEntries mainWorld.folding [emptyFile "main.py"] true =
      .ok (Dict.empty.set "main.py" (emptyFile "main.py")) := by decide +kernel
  have hmain : entrypoint "main.py" = .ok ⟨"", ["main.py"]⟩ := by decide +kernel
  have hin : (⟨"", ["main.py"]⟩ : PurePosixPath).str ∈
      (Dict.empty.set "main.py" (emptyFile "main.py") : Dict String ZipInfo).keys := by decide +kernel
  have hput : putArchive mainWorld sampleStore sampleProject mainZip = .ok mainStored :=
    putArchive_of_accepted (by decide) hlen rfl haccepted
  have hvalid : validateReference mainWorld mainStored.2 sampleProject mainStored.1.sourceRef
      mainStored.1.contentDigest "main.py" = .ok () :=
    (validateReference_iff hlen rfl haccepted).mpr ⟨_, hmain, hin⟩
  have hio : (materialized mainWorld mainStored).2 ≠ .error .os := by
    unfold materialized mainStored
    rw [materialize_eq hlen rfl haccepted hmain hin rfl]
    decide +kernel
  obtain ⟨infos, hzip, hiff⟩ := materializes_iff mainWorld sampleStore mainStored.2 sampleProject mainZip mainStored.1
    "main.py" sampleFiles ["work"] sampleToken hput hvalid rfl sampleFiles_empty hio
  obtain rfl : [emptyFile "main.py"] = infos := Except.ok.inj hzip
  exact ⟨hput, hiff.mpr (by decide)⟩

theorem dot_not_materialized :
    putArchive dotWorld sampleStore sampleProject dotZip = .ok dotStored ∧
      validateReference dotWorld dotStored.2 sampleProject dotStored.1.sourceRef dotStored.1.contentDigest "main.py" =
        .ok () ∧
      (∀ parts, parts ≠ [] → sampleFiles.node (["work"] ++ parts) = none) ∧
      (materialized dotWorld dotStored).2 = .error .value := by
  have hlen : dotZip.length ≤ MAX_ARCHIVE_BYTES := by decide +kernel
  have haccepted : acceptEntries dotWorld.folding dotInfos true =
      .ok ((Dict.empty.set "main.py" (emptyFile "main.py")).set "." (emptyFile ".")) := by decide +kernel
  have hmain : entrypoint "main.py" = .ok ⟨"", ["main.py"]⟩ := by decide +kernel
  have hin : (⟨"", ["main.py"]⟩ : PurePosixPath).str ∈
      ((Dict.empty.set "main.py" (emptyFile "main.py")).set "." (emptyFile ".") : Dict String ZipInfo).keys := by
    decide +kernel
  refine ⟨putArchive_of_accepted (by decide) hlen rfl haccepted,
    (validateReference_iff hlen rfl haccepted).mpr ⟨_, hmain, hin⟩, sampleFiles_empty, ?_⟩
  unfold materialized dotStored
  rw [materialize_eq hlen rfl haccepted hmain hin rfl]
  decide +kernel

end SmartTest.Source
