import ResourceFinder.Proofs.CommandLine.Output
import ResourceFinder.Proofs.Index.WorkingDirectory
import ResourceFinder.Proofs.Settings.Nearest

/-
Runs from different working directories.

The working directory decides where the search for a configuration file starts, and where relative
paths do.  The roots that settings name are absolute, so a run that takes its roots from settings
and writes to the standard output depends on the working directory only by which file counts there.
-/

namespace ResourceFinder
namespace CommandLine

variable {fs : FileSystem} {place : Place}

/-! ## Searches -/

theorem line?_seenFrom {l : Location} (h : l.root.path.isAbsolute = true) (o : Options) :
    line? (fs.seenFrom place) o l = line? fs o l := by
  have hproperties : (Loader.properties Loader.defaultEncoding l).within (fs.seenFrom place) =
      (Loader.properties Loader.defaultEncoding l).within fs := by
    show (l.readText (fs.seenFrom place) Loader.defaultEncoding >>= _) = _
    rw [Location.readText_seenFrom h]
    rfl
  unfold line?
  rw [hproperties, Location.readText_seenFrom h]

section

variable {index : Index}
  (habsolute : ∀ r ∈ index.resources, r.location.root.path.isAbsolute = true)
include habsolute

theorem outputLines_seenFrom (accepts : Text → Bool) (o : Options) :
    outputLines (fs.seenFrom place) index accepts o = outputLines fs index accepts o := by
  rw [outputLines_eq, outputLines_eq, List.mapM_map, List.mapM_map]
  exact congrArg _ (mapM_congr_left fun r hr =>
    line?_seenFrom (habsolute r (List.mem_of_mem_filter hr)) o)

theorem render_seenFrom (accepts : Text → Bool) (o : Options) :
    render (fs.seenFrom place) index accepts o = render fs index accepts o := by
  rw [render, render, outputLines_seenFrom habsolute]

end

/-- What a run leaves behind, seen from a working directory. -/
def RunResult.seenFrom (r : RunResult) (place : Place) : RunResult :=
  { r with fs := r.fs.seenFrom place }

theorem RunResult.seenFrom_mk (exit : Except Fault Nat) (output : Bytes) (messages : Text) :
    (⟨exit, output, messages, fs⟩ : RunResult).seenFrom place =
      ⟨exit, output, messages, fs.seenFrom place⟩ := rfl

theorem Stop.answer_seenFrom (log : Text) (stop : Stop) :
    stop.answer (fs.seenFrom place) log = (stop.answer fs log).seenFrom place := by
  cases stop with
  | message t => rfl
  | failure f => cases hf : isUsersFault f <;> simp [Stop.answer, hf] <;> rfl

theorem printed_seenFrom (m : Machine) (t : Text) :
    printed m t (fs.seenFrom place) = (printed m t fs).seenFrom place := by
  unfold printed
  rcases m.print t with ⟨taken, _ | f⟩ <;> rfl

theorem deliver_seenFrom {o : Options} (h : o.output = Options.standardOutput) (log t : Text) :
    deliver (fs.seenFrom place) o log t = (deliver fs o log t).seenFrom place := by
  unfold deliver
  rw [if_pos h, if_pos h]
  split <;> rfl

/-- A search of absolute roots for the standard output comes to the same from everywhere. -/
theorem search_seenFrom {o : Options}
    (hroots : ∀ root ∈ o.roots, (Path.ofText root).isAbsolute = true)
    (houtput : o.output = Options.standardOutput) :
    search (fs.seenFrom place) o = (search fs o).seenFrom place := by
  unfold search
  simp only [Index.ofPaths_seenFrom hroots]
  split
  case isTrue => rfl
  split
  case isTrue => rfl
  simp only [Machine.during, Machine.duringIndex, Machine.duringRendering]
  cases predicate o.patterns o.regex with
  | error f => exact Stop.answer_seenFrom [] (.failure f)
  | ok accepts =>
    cases hindex : (Index.ofPaths fs o.scanConfig o.roots).result with
    | error f => exact Stop.answer_seenFrom _ (.failure f)
    | ok index =>
      simp only [render_seenFrom (Index.isAbsolute_of_ofPaths hindex)]
      cases render fs index accepts o with
      | error f => rfl
      | ok t => exact deliver_seenFrom houtput _ t

/-! ## Runs -/

/-- The settings that count for a working directory are those of the file that does. -/
theorem settingsHere_seenFrom : settingsHere (fs.seenFrom place) =
    match Settings.findFrom? fs ⟨.root, place⟩ with
    | none => .ok none
    | some p => (Settings.load fs p).map some := by
  have hfind : Settings.findFrom? (fs.seenFrom place) ⟨.root, place⟩ =
      Settings.findFrom? fs ⟨.root, place⟩ := Settings.findFrom?_seenFrom rfl
  have hcurrent : (fs.seenFrom place).current = place := rfl
  rw [settingsHere, hcurrent, hfind]
  cases hfound : Settings.findFrom? fs ⟨.root, place⟩ with
  | none => rfl
  | some p =>
    have hroot : (⟨.root, place⟩ : Path).isAbsolute = true := rfl
    have habsolute := Settings.isAbsolute_of_findFrom? hroot hfound
    simp only [Settings.load_seenFrom habsolute]

theorem isAbsolute_of_settingsHere {s : Settings} {roots : List Text}
    (h : settingsHere fs = .ok (some s)) (hroots : s.roots = some roots) :
    ∀ root ∈ roots, (Path.ofText root).isAbsolute = true := by
  unfold settingsHere at h
  split at h
  case h_1 => cases h
  case h_2 p hfound =>
    obtain ⟨_, hload, hs⟩ := map_eq_ok.1 h
    obtain rfl := Option.some.inj hs
    exact Settings.isAbsolute_of_load hload hroots

/-- The roots that a run takes from settings are absolute. -/
theorem isAbsolute_of_optionsHere {o used : Options} {explicit : List Text}
    (h : optionsHere {} fs o explicit = .ok used) (hnone : o.roots = []) :
    ∀ root ∈ used.roots, (Path.ofText root).isAbsolute = true := by
  obtain ⟨found, hfound, rfl⟩ := map_eq_ok.1 h
  have hsettings : settingsHere fs = .ok found := mapError_eq_ok hfound
  cases found with
  | none => simp [hnone]
  | some s =>
    show ∀ root ∈ settle explicit rootsName s.roots o.roots, _
    rw [hnone, settle]
    split
    case isTrue => simp
    case isFalse =>
      cases hroots : s.roots with
      | none => simp
      | some roots => exact isAbsolute_of_settingsHere hsettings hroots

theorem output_of_optionsHere {o used : Options} {explicit : List Text}
    (h : optionsHere {} fs o explicit = .ok used) : used.output = o.output := by
  obtain ⟨found, -, rfl⟩ := map_eq_ok.1 h
  cases found <;> rfl

/-- Arguments that name no roots and no file for the output. -/
def NamesNoPath (arguments : List Text) : Prop :=
  ∀ o explicit, Options.read arguments = .ok (o, explicit) →
    o.roots = [] ∧ o.output = Options.standardOutput

theorem isAbsolute_of_rootPaths {arguments : List Text} (harguments : NamesNoPath arguments) :
    ∀ root ∈ rootPaths fs arguments, root.isAbsolute = true := by
  intro root hroot
  unfold rootPaths at hroot
  split at hroot
  case h_1 o explicit hread hsettings =>
    obtain ⟨hnone, -⟩ := harguments o explicit hread
    rw [hnone] at hroot
    cases hroot
  case h_2 o explicit s hread hsettings =>
    obtain ⟨hnone, -⟩ := harguments o explicit hread
    have hused : optionsHere {} fs o explicit = .ok (o.under s explicit) := by
      rw [optionsHere, settingsOn_default, hsettings]
      rfl
    obtain ⟨shown, hshown, rfl⟩ := List.mem_map.1 hroot
    exact isAbsolute_of_optionsHere hused hnone shown hshown
  case h_3 => cases hroot

/-- Where the same settings count, such arguments have one outcome. -/
theorem run_seenFrom (fs : FileSystem) {arguments : List Text} (harguments : NamesNoPath arguments)
    (hsettings : settingsHere (fs.seenFrom place) = settingsHere fs) :
    run (fs.seenFrom place) arguments = (run fs arguments).seenFrom place := by
  cases hread : Options.read arguments with
  | error halt =>
    cases halt with
    | help => rw [run_of_help hread, run_of_help hread, RunResult.seenFrom_mk]
    | usage e => rw [run_of_usage hread, run_of_usage hread, RunResult.seenFrom_mk]
  | ok given =>
    obtain ⟨o, explicit⟩ := given
    obtain ⟨hroots, houtput⟩ := harguments o explicit hread
    cases hversion : o.version with
    | true =>
      rw [run_of_version hread hversion, run_of_version hread hversion]
      exact printed_seenFrom {} versionText
    | false =>
      have hoptions : optionsHere {} (fs.seenFrom place) o explicit = optionsHere {} fs o explicit := by
        rw [optionsHere, optionsHere, settingsOn_default, settingsOn_default, hsettings]
      cases hused : optionsHere {} fs o explicit with
      | error stop =>
        have hfails : settingsOn {} fs = .error stop := map_eq_error.1 hused
        have hfailsThere : settingsOn {} (fs.seenFrom place) = .error stop := by
          rw [settingsOn_default, hsettings]
          exact hfails
        unfold run
        simp only [hread, hversion, hfails, hfailsThere]
        exact Stop.answer_seenFrom [] stop
      | ok used =>
        rw [run_eq_search hread hversion (hoptions.trans hused), run_eq_search hread hversion hused]
        exact search_seenFrom (isAbsolute_of_optionsHere hused hroots)
          ((output_of_optionsHere hused).trans houtput)

/-- A configuration works from any subdirectory.  From a directory below another one, if no
configuration file counts in it and in those between the two, the nearest one is that of the other
directory, its roots are the same absolute paths, and a run that names no roots and no output file
has the same exit code, output and messages. -/
theorem run_in_subdirectory (fs : FileSystem) (hnamed : fs.root.isNamed = true)
    (above way : Place) {entries : List (Text × Node)}
    (hdirectory : fs.nodeAt? (above ++ way) = some (.directory entries))
    (hnone : ∀ between below, way = between ++ below → between ≠ [] →
      Settings.NoneCounts fs ⟨.root, above ++ between⟩) :
    let here := fs.seenFrom above
    let there := fs.seenFrom (above ++ way)
    Settings.find? there ⟨.root, above ++ way⟩ = Settings.find? here ⟨.root, above⟩ ∧
    (∀ p, Settings.find? here ⟨.root, above⟩ = .ok (some p) →
      Settings.load there p = Settings.load here p ∧
      ∀ s roots, Settings.load here p = .ok s → s.roots = some roots →
        ∀ root ∈ roots, (Path.ofText root).isAbsolute = true) ∧
    ∀ arguments, NamesNoPath arguments →
      rootPaths there arguments = rootPaths here arguments ∧
      (∀ root ∈ rootPaths here arguments, root.isAbsolute = true) ∧
      (run there arguments).exit = (run here arguments).exit ∧
      (run there arguments).output = (run here arguments).output ∧
      (run there arguments).messages = (run here arguments).messages := by
  intro here there
  have hfrom : Settings.findFrom? fs ⟨.root, above ++ way⟩ = Settings.findFrom? fs ⟨.root, above⟩ :=
    Settings.findFrom?_below (p := ⟨.root, above⟩) hnone
  have hsettings : settingsHere there = settingsHere here := by
    rw [settingsHere_seenFrom, settingsHere_seenFrom, hfrom]
  have hfind {place : Place} (p : Place) {entries : List (Text × Node)}
      (h : fs.nodeAt? p = some (.directory entries)) :
      Settings.find? (fs.seenFrom place) ⟨.root, p⟩ =
        .ok (Settings.findFrom? fs ⟨.root, p⟩) := by
    rw [Settings.find?, FileSystem.realPath_seenFrom rfl, fs.realPath_of_directory hnamed h]
    show Except.ok (Settings.findFrom? (fs.seenFrom place) ⟨.root, p⟩) = _
    rw [Settings.findFrom?_seenFrom rfl]
  obtain ⟨_, hdirectoryAbove⟩ := fs.directory_of_prefix hdirectory
  refine ⟨?_, fun p hp => ⟨?_, fun s roots => Settings.isAbsolute_of_load⟩, ?_⟩
  · rw [hfind _ hdirectory, hfind _ hdirectoryAbove, hfrom]
  · rw [hfind _ hdirectoryAbove] at hp
    have hroot : (⟨.root, above⟩ : Path).isAbsolute = true := rfl
    have habsolute : p.isAbsolute = true :=
      Settings.isAbsolute_of_findFrom? hroot (Except.ok.inj hp)
    rw [Settings.load_seenFrom habsolute, Settings.load_seenFrom habsolute]
  · intro arguments harguments
    have hrun : run there arguments = (run here arguments).seenFrom (above ++ way) :=
      run_seenFrom here harguments hsettings
    refine ⟨by rw [rootPaths, rootPaths, hsettings], isAbsolute_of_rootPaths harguments, ?_⟩
    rw [hrun]
    exact ⟨rfl, rfl, rfl⟩

/-! ## A file that is passed -/

/-- A directory with `roots=["b"]` in its configuration file.  The file that belongs to many tools in
the directory below is no text. -/
def passedFile : FileSystem :=
  ⟨[("d", .directory [
    (".reslocator.toml", .file [114, 111, 111, 116, 115, 61, 91, 34, 98, 34, 93]),
    ("b", .directory [("pyproject.toml", .file [255])])])], []⟩

theorem noneCounts_passedFile : Settings.NoneCounts passedFile ⟨.root, ["d", "b"]⟩ := by
  have hdot : passedFile.isFile ⟨.root, ["d", "b", ".reslocator.toml"]⟩ = false := by cbv
  have hplain : passedFile.isFile ⟨.root, ["d", "b", "reslocator.toml"]⟩ = false := by cbv
  have hread : passedFile.read ⟨.root, ["d", "b", "pyproject.toml"]⟩ = .ok [255] := by cbv
  have hdecode : Utf8.decode [255] = Utf8.refuse 0 [255] .invalidStart := by cbv
  have hnames : Settings.fileNames =
      [(".reslocator.toml" : Text), "reslocator.toml", Settings.sharedFileName] := by decide
  intro name hname hcounts
  rw [hnames] at hname
  obtain rfl | rfl | rfl : name = (".reslocator.toml" : Text) ∨ name = ("reslocator.toml" : Text) ∨
      name = Settings.sharedFileName := by simpa using hname
  · cases hcounts with
    | own hfile => cases hdot.symm.trans hfile
    | shared hfile => cases hdot.symm.trans hfile
  · cases hcounts with
    | own hfile => cases hplain.symm.trans hfile
    | shared hfile => cases hplain.symm.trans hfile
  · cases hcounts with
    | own hfile hother => exact hother rfl
    | shared hfile _ hoctets htext =>
      obtain rfl := Except.ok.inj (hread.symm.trans hoctets)
      cases hdecode.symm.trans htext

theorem findFrom?_passedFile : Settings.findFrom? (passedFile.seenFrom ["d"]) ⟨.root, ["d"]⟩ =
    some ⟨.root, ["d", ".reslocator.toml"]⟩ := by
  have hfile : (passedFile.seenFrom ["d"]).isFile ⟨.root, ["d", ".reslocator.toml"]⟩ = true := by cbv
  exact Settings.findFrom?_of_first rfl (.own hfile (by decide))

theorem find?_passedFile : Settings.find? (passedFile.seenFrom ["d"]) ⟨.root, ["d"]⟩ =
    .ok (some ⟨.root, ["d", ".reslocator.toml"]⟩) := by
  have hreal : (passedFile.seenFrom ["d"]).realPath ⟨.root, ["d"]⟩ = .ok ⟨.root, ["d"]⟩ :=
    FileSystem.realPath_of_directory (by decide) rfl
  rw [Settings.find?, hreal]
  exact congrArg Except.ok findFrom?_passedFile

theorem load_passedFile :
    Settings.load (passedFile.seenFrom ["d"]) ⟨.root, ["d", ".reslocator.toml"]⟩ =
      .ok { roots := some ["/d/b"] } := by
  have htext : (passedFile.seenFrom ["d"]).readText ⟨.root, ["d", ".reslocator.toml"]⟩ =
      .ok ("roots=[\"b\"]" : Text) := by cbv
  have hdocument :
      Settings.readDocument (passedFile.seenFrom ["d"]) ⟨.root, ["d", ".reslocator.toml"]⟩ =
        .ok [("roots", .list [.text "b"])] := by
    rw [Settings.readDocument, htext]
    rfl
  have hresolve : (passedFile.seenFrom ["d"]).resolve ⟨.root, ["d", ".reslocator.toml"]⟩ =
      ⟨.root, ["d", ".reslocator.toml"]⟩ := by cbv
  rw [Settings.load_eq hdocument, hresolve]
  rfl

def anyButOne : List Text := ["--exclude", "y", "*"]

theorem read_anyButOne :
    Options.read anyButOne = .ok (.ofArguments ⟨[⟨.exclude, "y"⟩], ["*"], []⟩, ["exclude"]) := by
  cbv

theorem namesNoPath_anyButOne : NamesNoPath anyButOne := by
  intro o explicit h
  obtain ⟨rfl, -⟩ := Prod.mk.inj (Except.ok.inj (read_anyButOne.symm.trans h))
  exact ⟨rfl, rfl⟩

/-- The root that is set is the directory below, and the file in it is the one resource. -/
theorem run_passedFile : run (passedFile.seenFrom ["d"]) anyButOne =
    ⟨.ok 0, [112, 121, 112, 114, 111, 106, 101, 99, 116, 46, 116, 111, 109, 108, 10], [],
      passedFile.seenFrom ["d"]⟩ := by
  have hsettings : settingsHere (passedFile.seenFrom ["d"]) =
      .ok (some { roots := some ["/d/b"] }) := by
    have hcurrent : (passedFile.seenFrom ["d"]).current = (["d"] : Place) := rfl
    rw [settingsHere, hcurrent, findFrom?_passedFile]
    simp only [load_passedFile]
    rfl
  have hoptions : optionsHere {} (passedFile.seenFrom ["d"])
      (.ofArguments ⟨[⟨.exclude, "y"⟩], ["*"], []⟩) ["exclude"] =
        .ok { Options.ofArguments ⟨[⟨.exclude, "y"⟩], ["*"], []⟩ with roots := ["/d/b"] } := by
    rw [optionsHere, settingsOn_default, hsettings]
    rfl
  rw [run_eq_search read_anyButOne rfl hoptions]
  cbv

theorem run_in_subdirectory_passedFile :
    let here := passedFile.seenFrom ["d"]
    let there := passedFile.seenFrom ["d", "b"]
    passedFile.root.isNamed = true ∧
    passedFile.nodeAt? ["d", "b"] = some (.directory [("pyproject.toml", .file [255])]) ∧
    Settings.NoneCounts passedFile ⟨.root, ["d", "b"]⟩ ∧ NamesNoPath anyButOne ∧
    Settings.find? here ⟨.root, ["d"]⟩ = .ok (some ⟨.root, ["d", ".reslocator.toml"]⟩) ∧
    Settings.find? there ⟨.root, ["d", "b"]⟩ = .ok (some ⟨.root, ["d", ".reslocator.toml"]⟩) ∧
    Settings.load there ⟨.root, ["d", ".reslocator.toml"]⟩ = .ok { roots := some ["/d/b"] } ∧
    rootPaths there anyButOne = rootPaths here anyButOne ∧
    (run there anyButOne).exit = .ok 0 ∧
    Utf8.encode "pyproject.toml\n" = .ok (run there anyButOne).output ∧
    (run there anyButOne).messages = [] := by
  intro here there
  have hnone : ∀ between below : Place, (["b"] : Place) = between ++ below → between ≠ [] →
      Settings.NoneCounts passedFile ⟨.root, (["d"] : Place) ++ between⟩ := by
    intro between below hway hne
    obtain ⟨hnil, -⟩ | ⟨tail, hbetween, htail⟩ := List.cons_eq_append_iff.1 hway
    · exact absurd hnil hne
    · obtain ⟨rfl, -⟩ := List.append_eq_nil_iff.1 htail.symm
      rw [hbetween]
      exact noneCounts_passedFile
  obtain ⟨hfind, hload, hruns⟩ := run_in_subdirectory passedFile (by decide) ["d"] ["b"] rfl hnone
  obtain ⟨hsame, -⟩ := hload _ find?_passedFile
  obtain ⟨hroots, -, hexit, houtput, hmessages⟩ := hruns anyButOne namesNoPath_anyButOne
  rw [run_passedFile] at hexit houtput hmessages
  have hencode : Utf8.encode "pyproject.toml\n" = .ok (run there anyButOne).output :=
    (show Utf8.encode "pyproject.toml\n" = .ok _ from rfl).trans (congrArg _ houtput.symm)
  exact ⟨by decide, rfl, noneCounts_passedFile, namesNoPath_anyButOne, find?_passedFile,
    hfind.trans find?_passedFile, hsame.trans load_passedFile, hroots, hexit, hencode, hmessages⟩

end CommandLine
end ResourceFinder
