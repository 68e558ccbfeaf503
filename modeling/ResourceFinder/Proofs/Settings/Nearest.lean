import Mathlib.Data.List.Induction
import ResourceFinder.Proofs.FileSystem.WorkingDirectory
import ResourceFinder.Proofs.Settings.Reading

/-
The configuration file that counts for a directory.

The search goes upwards and passes directories without a file that counts, whatever else they hold.
So it comes to the same from a directory and from one below it, if it passes all directories between
them.
-/

namespace ResourceFinder

theorem Path.ancestors_child (p : Path) (name : Text) :
    (p.child name).ancestors = p.child name :: p.ancestors := by
  obtain ⟨anchor, segments⟩ := p
  have hself : (segments ++ [name]).take (segments.length + 1) = segments ++ [name] :=
    List.take_of_length_le (by simp)
  have habove : ∀ k ∈ (List.range (segments.length + 1)).reverse,
      (⟨anchor, (segments ++ [name]).take k⟩ : Path) = ⟨anchor, segments.take k⟩ := by
    intro k hk
    have hk : k < segments.length + 1 := List.mem_range.1 (List.mem_reverse.1 hk)
    rw [List.take_append_of_le_length (Nat.le_of_lt_succ hk)]
  simp only [ancestors, child, List.length_append, List.length_singleton]
  rw [List.range_succ, List.reverse_append, List.reverse_singleton, List.singleton_append,
    List.map_cons, hself, List.map_congr_left habove]

theorem Path.exists_ancestors (p : Path) : ∃ above, p.ancestors = p :: above := by
  obtain ⟨anchor, segments⟩ := p
  induction segments using List.reverseRecOn with
  | nil => exact ⟨[], rfl⟩
  | append_singleton above name => exact ⟨_, ancestors_child ⟨anchor, above⟩ name⟩

namespace Settings

variable {fs : FileSystem} {p : Path}

/-! ## Files that count -/

theorem toolTable?_eq_some {document members : Toml.Table} :
    toolTable? document = some members ↔ ∃ tools, document.get? "tool" = some (.table tools) ∧
      tools.lookup toolName = some (.table members) := by
  unfold toolTable?
  split
  case h_1 tools htools =>
    rw [htools]
    split
    case h_1 members' hmembers => simp [hmembers]
    case h_2 hother => simpa using hother members
  case h_2 hother => simpa using fun tools htools => absurd htools (hother tools)

theorem readDocument_eq_ok {document : Toml.Table} : readDocument fs p = .ok document ↔
    ∃ octets text, fs.read p = .ok octets ∧ Utf8.decode octets = .ok text ∧
      Toml.parse text.unifyLineEnds = .ok document := by
  have hread : readDocument fs p = .ok document ↔
      ∃ text, fs.readText p = .ok text ∧ Toml.parse text = .ok document := by
    unfold readDocument
    cases fs.readText p with
    | error e => exact iff_of_false nofun (by simp)
    | ok text =>
      cases hparse : Toml.parse text with
      | ok t => simp [hparse, bind, Except.bind, Except.mapError]
      | error e => cases e <;> simp [hparse, bind, Except.bind, Except.mapError]
  rw [hread]
  unfold FileSystem.readText
  cases fs.read p with
  | error e => exact iff_of_false nofun (by simp)
  | ok octets =>
    cases hdecode : Utf8.decode octets with
    | error e => simp [hdecode, bind, Except.bind, Except.mapError]
    | ok text => simp [hdecode, bind, Except.bind, Except.mapError, pure, Except.pure]

/-- The files that count as configuration files: those of the tool's own names, and the one that
belongs to many tools if it is a document with a table for this tool. -/
inductive Counts (fs : FileSystem) (p : Path) : Prop where
  | own (hfile : fs.isFile p = true) (hname : p.name ≠ sharedFileName) : Counts fs p
  | shared {octets : Bytes} {text : Text} {document members : Toml.Table}
      {tools : List (Text × Toml.Value)} (hfile : fs.isFile p = true)
      (hname : p.name = sharedFileName) (hoctets : fs.read p = .ok octets)
      (htext : Utf8.decode octets = .ok text)
      (hdocument : Toml.parse text.unifyLineEnds = .ok document)
      (htools : document.get? "tool" = some (.table tools))
      (hmembers : tools.lookup toolName = some (.table members)) : Counts fs p

theorem counts_iff : counts fs p = true ↔ Counts fs p := by
  unfold counts
  rw [Bool.and_eq_true, Bool.or_eq_true, bne_iff_ne]
  constructor
  · rintro ⟨hfile, hown | hshared⟩
    · exact .own hfile hown
    · by_cases hname : p.name = sharedFileName
      · cases hdocument : readDocument fs p with
        | error e =>
          rw [hdocument] at hshared
          cases hshared
        | ok document =>
          rw [hdocument] at hshared
          obtain ⟨members, hmembers⟩ := Option.isSome_iff_exists.1 hshared
          obtain ⟨octets, text, hoctets, htext, hdocument⟩ := readDocument_eq_ok.1 hdocument
          obtain ⟨tools, htools, hmembers⟩ := toolTable?_eq_some.1 hmembers
          exact .shared hfile hname hoctets htext hdocument htools hmembers
      · exact .own hfile hname
  · intro h
    cases h with
    | own hfile hname => exact ⟨hfile, .inl hname⟩
    | shared hfile hname hoctets htext hdocument htools hmembers =>
      refine ⟨hfile, .inr ?_⟩
      rw [readDocument_eq_ok.2 ⟨_, _, hoctets, htext, hdocument⟩]
      exact Option.isSome_iff_exists.2 ⟨_, toolTable?_eq_some.2 ⟨_, htools, hmembers⟩⟩

/-- No configuration file in a directory counts. -/
def NoneCounts (fs : FileSystem) (directory : Path) : Prop :=
  ∀ name ∈ fileNames, ¬ Counts fs (directory.child name)

/-! ## The search -/

theorem findFrom?_child {name : Text} (h : NoneCounts fs (p.child name)) :
    findFrom? fs (p.child name) = findFrom? fs p := by
  have hnone : (fileNames.map (p.child name).child).find? (counts fs) = none := by
    rw [List.find?_eq_none]
    intro candidate hcandidate
    obtain ⟨file, hfile, rfl⟩ := List.mem_map.1 hcandidate
    exact mt counts_iff.1 (h file hfile)
  rw [findFrom?, candidates, Path.ancestors_child, List.flatMap_cons, List.find?_append, hnone,
    Option.none_or]
  rfl

/-- Directories in which no file counts make no difference. -/
theorem findFrom?_below {way : List Text} (h : ∀ above below, way = above ++ below → above ≠ [] →
    NoneCounts fs (p.below above)) : findFrom? fs (p.below way) = findFrom? fs p := by
  induction way using List.reverseRecOn with
  | nil => simp [Path.below]
  | append_singleton above name ih =>
    have hchild : p.below (above ++ [name]) = (p.below above).child name := by
      simp [Path.below, Path.child]
    have hlast : NoneCounts fs ((p.below above).child name) :=
      hchild ▸ h (above ++ [name]) [] (List.append_nil _).symm (by simp)
    rw [hchild, findFrom?_child hlast]
    exact ih fun above' below habove => h above' (below ++ [name]) (by rw [habove, List.append_assoc])

/-- A file of the name that is looked for first is the nearest one. -/
theorem findFrom?_of_first {name : Text} {names : List Text} (hnames : fileNames = name :: names)
    (h : Counts fs (p.child name)) : findFrom? fs p = some (p.child name) := by
  obtain ⟨above, habove⟩ := p.exists_ancestors
  rw [findFrom?, candidates, habove, List.flatMap_cons, hnames, List.map_cons, List.cons_append,
    List.find?_cons_of_pos (counts_iff.2 h)]

theorem isAbsolute_of_mem_candidates {directory : Path} (h : directory.isAbsolute = true) :
    ∀ candidate ∈ candidates directory, candidate.isAbsolute = true := by
  intro candidate hcandidate
  obtain ⟨d, hd, hcandidate⟩ := List.mem_flatMap.1 hcandidate
  obtain ⟨k, -, rfl⟩ := List.mem_map.1 hd
  obtain ⟨name, -, rfl⟩ := List.mem_map.1 hcandidate
  exact h

theorem isAbsolute_of_findFrom? {directory : Path} (h : directory.isAbsolute = true)
    (hfound : findFrom? fs directory = some p) : p.isAbsolute = true :=
  isAbsolute_of_mem_candidates h p (List.mem_of_find?_eq_some hfound)

/-- The roots that a file sets are absolute. -/
theorem isAbsolute_of_load {s : Settings} {roots : List Text} (h : load fs p = .ok s)
    (hroots : s.roots = some roots) : ∀ root ∈ roots, (Path.ofText root).isAbsolute = true := by
  cases hdocument : readDocument fs p with
  | error e =>
    rw [load, hdocument] at h
    cases h
  | ok document =>
    rw [load_eq hdocument] at h
    obtain ⟨written, -, rfl⟩ := map_eq_ok.1 h
    have hbase : (fs.resolve p).parent.isAbsolute = true := fs.isAbsolute_resolve p
    obtain ⟨texts, -, rfl⟩ := Option.map_eq_some_iff.1 hroots
    intro root hroot
    obtain ⟨text, -, rfl⟩ := List.mem_map.1 hroot
    exact Path.isAbsolute_ofText_text (Path.isAbsolute_join hbase)

/-! ## The working directory -/

section

variable {place : Place} (h : p.isAbsolute = true)
include h

theorem readDocument_seenFrom : readDocument (fs.seenFrom place) p = readDocument fs p := by
  rw [readDocument, readDocument, FileSystem.readText_seenFrom h]

theorem load_seenFrom : load (fs.seenFrom place) p = load fs p := by
  simp only [load, readDocument_seenFrom h, FileSystem.resolve_seenFrom h]

theorem counts_seenFrom : counts (fs.seenFrom place) p = counts fs p := by
  rw [counts, counts, FileSystem.isFile_seenFrom h, readDocument_seenFrom h]

theorem findFrom?_seenFrom : findFrom? (fs.seenFrom place) p = findFrom? fs p := by
  have hcounts : ∀ candidate ∈ candidates p,
      counts (fs.seenFrom place) candidate = counts fs candidate :=
    fun candidate hcandidate => counts_seenFrom (isAbsolute_of_mem_candidates h candidate hcandidate)
  unfold findFrom?
  generalize candidates p = paths at hcounts
  induction paths with
  | nil => rfl
  | cons path paths ih =>
    obtain ⟨hpath, hpaths⟩ := List.forall_mem_cons.1 hcounts
    rw [List.find?_cons, List.find?_cons, hpath, ih hpaths]

end

end Settings
end ResourceFinder
