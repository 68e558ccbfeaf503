import ResourceFinder.FileSystem.Update
import ResourceFinder.Proofs.FileSystem.Lookup
import ResourceFinder.Proofs.FileSystem.Plain

/-
What changes when something is put at a place, and what does not.

What is at a place is a file, a link or a directory; which entries a directory has is said by what
is at the places below it.  Putting something into a directory then changes what is at one place,
and every path still leads where it led unless that place was on its way.
-/

namespace ResourceFinder

/-- A node without its entries. -/
def Node.bare : Node → Node
  | directory _ => directory []
  | n => n

namespace FileSystem

/-- What is at a place: a file, a link, or a directory as such. -/
def bareAt? (fs : FileSystem) (place : Place) : Option Node := (fs.nodeAt? place).map Node.bare

variable {fs fs' : FileSystem}

theorem bareAt?_eq_directory {place : Place} : fs.bareAt? place = some (.directory []) ↔
    ∃ entries, fs.nodeAt? place = some (.directory entries) := by
  unfold bareAt?
  rcases fs.nodeAt? place with _ | content | target | entries <;> simp [Node.bare]

theorem bareAt?_eq_file {place : Place} {content : Bytes} :
    fs.bareAt? place = some (.file content) ↔ fs.nodeAt? place = some (.file content) := by
  unfold bareAt?
  rcases fs.nodeAt? place with _ | content | target | entries <;> simp [Node.bare]

theorem bareAt?_eq_link {place : Place} {target : Text} :
    fs.bareAt? place = some (.link target) ↔ fs.nodeAt? place = some (.link target) := by
  unfold bareAt?
  rcases fs.nodeAt? place with _ | content | target | entries <;> simp [Node.bare]

end FileSystem

theorem Path.parent_segments_append {p : Path} (hne : p.segments ≠ []) :
    p.segments = p.parent.segments ++ [p.name] := by
  obtain ⟨segments, name, hsegments⟩ := List.eq_nil_or_concat p.segments |>.resolve_left hne
  simp [parent, Path.name, hsegments]

theorem Path.isName_name {p : Path} (hp : p.IsSpelt) (hne : p.segments ≠ [])
    (hup : p.name ≠ Path.up) : Path.IsName p.name := by
  have hmem : p.name ∈ p.segments := by
    rw [parent_segments_append hne]
    simp
  exact { hp _ hmem with ne_up := hup }

theorem Path.IsSpelt.parent {p : Path} (hp : p.IsSpelt) : p.parent.IsSpelt :=
  fun s hs => hp s (List.dropLast_subset _ hs)

/-! ## Putting a node at a place -/

namespace Node

theorem lookup_map {α β γ : Type} [BEq α] [LawfulBEq α] {g : α × β → α × γ} {f : α → β → γ}
    (h : ∀ x, g x = (x.1, f x.1 x.2)) (l : List (α × β)) (a : α) :
    (l.map g).lookup a = (l.lookup a).map (f a) := by
  induction l with
  | nil => rfl
  | cons x l ih =>
    rw [List.map_cons, h, List.lookup_cons, List.lookup_cons]
    cases hx : a == x.1 with
    | true =>
      rw [eq_of_beq hx]
      rfl
    | false => exact ih

theorem lookup_eq_none {entries : List (Text × Node)} {name : Text} :
    entries.lookup name = none ↔ entries.any (·.1 = name) = false := by
  rw [List.lookup_eq_none_iff, List.any_eq_false]
  refine forall₂_congr fun x _ => ?_
  rw [bne_iff_ne, decide_eq_true_eq]
  exact not_congr eq_comm

theorem lookup_setEntry (name : Text) (n : Node) (entries : List (Text × Node)) (k : Text) :
    (setEntry name (some n) entries).lookup k = if k = name then some n else entries.lookup k := by
  simp only [setEntry]
  split
  case isTrue hany =>
    refine (lookup_map (f := fun k old => if k = name then n else old) (fun x => ?_)
      entries k).trans ?_
    · by_cases hx : x.1 = name <;> simp [hx]
    by_cases hk : k = name
    · subst hk
      cases hold : entries.lookup k with
      | none =>
        rw [lookup_eq_none.1 hold] at hany
        cases hany
      | some old => simp
    · simp [hk]
  case isFalse hany =>
    have hnone := lookup_eq_none.2 (eq_false_of_ne_true hany)
    rw [List.lookup_append]
    by_cases hk : k = name
    · simp [hk, hnone]
    · have hbeq : (k == name) = false := by simpa using hk
      simp [hk, hbeq, List.lookup_cons]

theorem lookup_setAt (n : Node) (name : Text) {rest : Place} (hrest : rest ≠ [])
    (entries : List (Text × Node)) (k : Text) :
    (setAt (some n) (name :: rest) entries).lookup k = (entries.lookup k).map fun old =>
      match old with
      | directory below => if k = name then directory (setAt (some n) rest below) else old
      | _ => old := by
  obtain ⟨next, rest, rfl⟩ := List.exists_cons_of_ne_nil hrest
  rw [setAt]
  · refine lookup_map (f := fun k old => match old with
      | directory below => if k = name then directory (setAt (some n) (next :: rest) below) else old
      | _ => old) (fun x => ?_) entries k
    obtain ⟨k, old⟩ := x
    cases old <;> rfl
  · simp

/-- A node without entries, put where no directory is, changes what is at its place alone. -/
theorem at?_setAt {n : Node} (hleaf : ∀ k, n.entry? k = none) {way : Place} {name : Text}
    {entries below : List (Text × Node)}
    (hway : (directory entries).at? way = some (directory below))
    (hold : ∀ inside, below.lookup name ≠ some (directory inside)) (place : Place) :
    ((directory (setAt (some n) (way ++ [name]) entries)).at? place).map bare =
      if place = way ++ [name] then some n.bare else ((directory entries).at? place).map bare := by
  induction way generalizing entries place with
  | nil =>
    obtain rfl : entries = below := directory.inj (Option.some.inj hway)
    cases place with
    | nil => rfl
    | cons k rest =>
      rw [List.nil_append, setAt, at?, at?, entry?, entry?, lookup_setEntry]
      by_cases hk : k = name
      · subst hk
        rw [if_pos rfl, Option.bind_some]
        cases rest with
        | nil => simp [at?]
        | cons k' rest =>
          rw [if_neg (by simp), at?, hleaf]
          cases hlookup : entries.lookup k with
          | none => rfl
          | some old =>
            cases old with
            | directory inside => exact absurd hlookup (hold inside)
            | file content => rfl
            | link target => rfl
      · rw [if_neg hk, if_neg (by simp [hk])]
  | cons d way ih =>
    obtain ⟨m, hm, hat⟩ := Option.bind_eq_some_iff.1 hway
    obtain ⟨inside, rfl⟩ := directory_of_at hat
    cases place with
    | nil => rfl
    | cons k rest =>
      rw [List.cons_append, at?, at?, entry?, entry?, lookup_setAt n d (by simp)]
      by_cases hk : k = d
      · subst hk
        have hlookup : entries.lookup k = some (directory inside) := hm
        have hbelow := ih hat rest
        simp only [hlookup, Option.map_some, if_true, Option.bind_some, hbelow, List.cons.injEq,
          true_and]
      · rw [if_neg (by simp [hk])]
        cases entries.lookup k with
        | none => rfl
        | some old => cases old <;> simp [hk]

end Node

namespace FileSystem

variable {fs : FileSystem} {place : Place} {name : Text} {n : Node}

theorem bareAt?_set (hleaf : ∀ k, n.entry? k = none)
    (hplace : fs.bareAt? place = some (.directory []))
    (hold : fs.bareAt? (place ++ [name]) ≠ some (.directory [])) (q : Place) :
    (fs.set (place ++ [name]) (some n)).bareAt? q =
      if q = place ++ [name] then some n.bare else fs.bareAt? q := by
  obtain ⟨entries, hnode⟩ := bareAt?_eq_directory.1 hplace
  refine Node.at?_setAt hleaf hnode (fun inside hinside => hold ?_) q
  exact bareAt?_eq_directory.2 ⟨inside, (nodeAt?_child hnode name).trans hinside⟩

/-! ## Ways that stay -/

/-- A way to a directory that goes on from a place starts in a directory. -/
theorem Leads.directory_on_way {links : Nat} {place p : Place} {way : List Text}
    (h : fs.Leads links place way p) (hp : fs.bareAt? p = some (.directory [])) :
    fs.bareAt? place = some (.directory []) := by
  cases way with
  | nil =>
    cases h with
    | done => exact hp
  | cons name way => exact bareAt?_eq_directory.2 (directory_of_follow h.follow_eq)

theorem Leads.leadsToDirectory {links : Nat} (hle : links ≤ linkLimit) {place p : Place}
    {name : Text} {way : List Text} (h : fs.Leads links place (name :: way) p)
    (hp : fs.bareAt? p = some (.directory [])) : fs.leadsToDirectory place name = true := by
  have hsplit : fs.Leads links place ([name] ++ way) p := h
  obtain ⟨links', place', hname, hway⟩ := hsplit.split
  obtain ⟨inside, hinside⟩ := bareAt?_eq_directory.1 (hway.directory_on_way hp)
  rw [FileSystem.leadsToDirectory, (hname.mono hle).follow_eq]
  simp only [hinside]
  rfl

/-- What leads to a directory is there in the other file system too. -/
structure KeepsDirectories (fs fs' : FileSystem) : Prop where
  current : fs'.current = fs.current
  directory : ∀ place, fs.bareAt? place = some (.directory []) →
    fs'.bareAt? place = some (.directory [])
  link : ∀ place name target, fs.bareAt? (place ++ [name]) = some (.link target) →
    fs.leadsToDirectory place name = true → fs'.bareAt? (place ++ [name]) = some (.link target)

theorem KeepsDirectories.directoryAt (h : fs.KeepsDirectories fs') {place : Place}
    {entries : List (Text × Node)} (hn : fs.nodeAt? place = some (.directory entries)) :
    ∃ entries', fs'.nodeAt? place = some (.directory entries') :=
  bareAt?_eq_directory.1 (h.directory place (bareAt?_eq_directory.2 ⟨entries, hn⟩))

/-- A way to a directory leads there still. -/
theorem KeepsDirectories.leads (h : fs.KeepsDirectories fs') {links : Nat}
    (hle : links ≤ linkLimit) {place p : Place} {way : List Text}
    (hleads : fs.Leads links place way p) (hp : fs.bareAt? p = some (.directory [])) :
    fs'.Leads links place way p := by
  induction hleads with
  | done links place => exact .done links place
  | here hnode _ ih =>
    obtain ⟨entries', hnode'⟩ := h.directoryAt hnode
    exact .here hnode' (ih hle hp)
  | up hnode _ ih =>
    obtain ⟨entries', hnode'⟩ := h.directoryAt hnode
    exact .up hnode' (ih hle hp)
  | @link links place p name way entries target hnode hhere hup hlookup hleads ih =>
    obtain ⟨entries', hnode'⟩ := h.directoryAt hnode
    have hlink : fs.nodeAt? (place ++ [name]) = some (.link target) :=
      (nodeAt?_child hnode name).trans hlookup
    have hlink' := h.link place name target (bareAt?_eq_link.2 hlink)
      ((Leads.link hnode hhere hup hlookup hleads).leadsToDirectory hle hp)
    have hlookup' : entries'.lookup name = some (.link target) :=
      (nodeAt?_child hnode' name).symm.trans (bareAt?_eq_link.1 hlink')
    exact .link hnode' hhere hup hlookup' (ih (by omega) hp)
  | @inside links place p name way entries n hnode hhere hup hlookup hlink hleads ih =>
    obtain ⟨entries', hnode'⟩ := h.directoryAt hnode
    -- The way goes on from what has this name, so it is a directory.
    have hinside := h.directory _ (hleads.directory_on_way hp)
    obtain ⟨inside, hinside⟩ := bareAt?_eq_directory.1 hinside
    have hlookup' : entries'.lookup name = some (.directory inside) :=
      (nodeAt?_child hnode' name).symm.trans hinside
    exact .inside hnode' hhere hup hlookup' (by simp) (ih hle hp)

theorem KeepsDirectories.locate_eq (h : fs.KeepsDirectories fs') {p : Path} {place : Place}
    (hlocate : fs.locate p = .ok place) (hplace : fs.bareAt? place = some (.directory [])) :
    fs'.locate p = .ok place := by
  rw [locate, startOf, h.current]
  exact (h.leads (Nat.le_refl _) (leads_of_follow hlocate) hplace).follow_eq

/-! ## Making directories -/

theorem holder_eq_ok {p : Path} {place : Place} {name : Text} :
    fs.holder p = .ok (place, name) ↔ fs.locate p.parent = .ok place ∧ name = p.name ∧
      fs.bareAt? place = some (.directory []) := by
  unfold holder
  cases hlocate : fs.locate p.parent with
  | error problem => simp [bind, Except.bind]
  | ok place' =>
    simp only [bind, Except.bind, bareAt?_eq_directory]
    constructor
    · intro h
      split at h
      · rename_i entries hnode
        obtain ⟨rfl, rfl⟩ := Prod.mk.inj (Except.ok.inj h)
        exact ⟨rfl, rfl, entries, hnode⟩
      · cases h
      · cases h
    · rintro ⟨hplace, rfl, entries, hnode⟩
      obtain rfl := Except.ok.inj hplace
      simp only [hnode]

/-- The last step of a path is made from the directory that holds it. -/
theorem locate_of_holder {p : Path} (hne : p.segments ≠ []) {place : Place} {name : Text}
    (h : fs.holder p = .ok (place, name)) :
    ∃ links, fs.locate p = fs.follow links place [name] := by
  obtain ⟨hlocate, rfl, -⟩ := holder_eq_ok.1 h
  obtain ⟨links, hrest⟩ := follow_append_ok hlocate
  refine ⟨links, ?_⟩
  rw [← hrest, locate, Path.parent_segments_append hne]
  rfl

theorem follow_into {links : Nat} {place : Place} {name : Text} {n : Node}
    (hplace : fs.bareAt? place = some (.directory [])) (hname : Path.IsName name)
    (hn : fs.nodeAt? (place ++ [name]) = some n) (hlink : ∀ target, n ≠ .link target) :
    fs.follow links place [name] = .ok (place ++ [name]) := by
  obtain ⟨entries, hnode⟩ := bareAt?_eq_directory.1 hplace
  rw [follow_name hnode hname ((nodeAt?_child hnode name).symm.trans hn) hlink, follow.eq_1]

/-- A file system with directories more, each where the path or one above it leads. -/
structure AddsDirectories (fs fs' : FileSystem) (p : Path) : Prop where
  current : fs'.current = fs.current
  bareAt? : ∀ place, fs'.bareAt? place = fs.bareAt? place ∨
    fs.bareAt? place = none ∧ fs'.bareAt? place = some (.directory []) ∧
      ∃ above below, p.segments = above ++ below ∧ fs'.locate ⟨p.anchor, above⟩ = .ok place

theorem AddsDirectories.refl (fs : FileSystem) (p : Path) : fs.AddsDirectories fs p :=
  ⟨rfl, fun _ => .inl rfl⟩

theorem AddsDirectories.keeps {p : Path} (h : fs.AddsDirectories fs' p) :
    fs.KeepsDirectories fs' := by
  have hsome : ∀ place n, fs.bareAt? place = some n → fs'.bareAt? place = some n := by
    intro place n hn
    obtain heq | ⟨hnone, -⟩ := h.bareAt? place
    · exact heq.trans hn
    · cases hnone.symm.trans hn
  exact ⟨h.current, fun place => hsome place _, fun place name target hn _ => hsome _ _ hn⟩

theorem AddsDirectories.trans {fs'' : FileSystem} {p q : Path} (h : fs.AddsDirectories fs' q)
    (h' : fs'.AddsDirectories fs'' p) (hanchor : q.anchor = p.anchor)
    (hq : ∃ below, p.segments = q.segments ++ below) : fs.AddsDirectories fs'' p := by
  obtain ⟨below', hbelow'⟩ := hq
  refine ⟨h'.current.trans h.current, fun place => ?_⟩
  obtain heq' | ⟨hnone', hnew', hplace'⟩ := h'.bareAt? place
  · obtain heq | ⟨hnone, hnew, above, below, habove, hlocate⟩ := h.bareAt? place
    · exact .inl (heq'.trans heq)
    · refine .inr ⟨hnone, heq'.trans hnew, above, below ++ below', ?_, ?_⟩
      · rw [hbelow', habove, List.append_assoc]
      · rw [← hanchor]
        exact h'.keeps.locate_eq hlocate hnew
  · obtain heq | ⟨-, hnew, -⟩ := h.bareAt? place
    · exact .inr ⟨heq.symm.trans hnone', hnew', hplace'⟩
    · cases hnone'.symm.trans hnew

theorem keepsDirectories_set {place : Place} {name : Text} {n : Node}
    (hleaf : ∀ k, n.entry? k = none) (hplace : fs.bareAt? place = some (.directory []))
    (hold : fs.bareAt? (place ++ [name]) ≠ some (.directory []))
    (hlead : fs.leadsToDirectory place name = false) :
    fs.KeepsDirectories (fs.set (place ++ [name]) (some n)) := by
  refine ⟨rfl, fun q hq => ?_, fun place' name' target hlink hlead' => ?_⟩
  · rw [bareAt?_set hleaf hplace hold, if_neg]
    · exact hq
    · rintro rfl
      exact hold hq
  · rw [bareAt?_set hleaf hplace hold, if_neg]
    · exact hlink
    · intro heq
      obtain ⟨rfl, hname⟩ := List.append_inj' heq rfl
      obtain rfl := List.singleton_inj.1 hname
      cases hlead.symm.trans hlead'

theorem leadsToDirectory_of_missing {place : Place} {name : Text}
    (hplace : fs.bareAt? place = some (.directory [])) (hname : Path.IsName name)
    (hnone : fs.nodeAt? (place ++ [name]) = none) : fs.leadsToDirectory place name = false := by
  obtain ⟨entries, hnode⟩ := bareAt?_eq_directory.1 hplace
  rw [leadsToDirectory,
    follow_missing hnode hname ((nodeAt?_child hnode name).symm.trans hnone)]

/-- What has been put into the directory that holds the end of a path is found there. -/
theorem locate_set {p : Path} (hne : p.segments ≠ []) (hname : Path.IsName p.name) {place : Place}
    {name : Text} (hholder : fs.holder p = .ok (place, name)) {n : Node}
    (hleaf : ∀ k, n.entry? k = none) (hlink : ∀ target, n ≠ .link target)
    (hold : fs.bareAt? (place ++ [name]) ≠ some (.directory []))
    (hlead : fs.leadsToDirectory place name = false) :
    (fs.set (place ++ [name]) (some n)).locate p = .ok (place ++ [name]) := by
  obtain ⟨hlocate, rfl, hplace⟩ := holder_eq_ok.1 hholder
  have hkeeps : fs.KeepsDirectories (fs.set (place ++ [p.name]) (some n)) :=
    keepsDirectories_set hleaf hplace hold hlead
  have hplace' := hkeeps.directory place hplace
  have hholder' := holder_eq_ok.2 ⟨hkeeps.locate_eq hlocate hplace, rfl, hplace'⟩
  obtain ⟨links, hlinks⟩ := locate_of_holder hne hholder'
  obtain ⟨m, hm, hbare⟩ : ∃ m, (fs.set (place ++ [p.name]) (some n)).nodeAt? (place ++ [p.name]) =
      some m ∧ m.bare = n.bare := by
    have hset := bareAt?_set hleaf hplace hold (place ++ [p.name])
    rw [if_pos rfl] at hset
    exact Option.map_eq_some_iff.1 hset
  rw [hlinks, follow_into hplace' hname hm]
  rintro target rfl
  cases n with
  | link target => exact hlink target rfl
  | file content => cases hbare
  | directory entries => cases hbare

theorem addsDirectories_makeDirectory {p : Path} (hp : p.IsSpelt)
    (h : fs.makeDirectory p = .ok fs') : fs.AddsDirectories fs' p := by
  unfold makeDirectory at h
  split at h
  case isTrue =>
    cases hlocate : fs.locate p with
    | error problem =>
      rw [hlocate] at h
      cases h
    | ok place =>
      rw [hlocate] at h
      cases h
  case isFalse hname =>
    obtain ⟨hne, hup⟩ : p.segments ≠ [] ∧ p.name ≠ Path.up := by simpa using hname
    cases hholder : fs.holder p with
    | error problem =>
      rw [hholder] at h
      cases h
    | ok holder =>
      obtain ⟨place, name⟩ := holder
      rw [hholder] at h
      simp only [bind, Except.bind] at h
      split at h
      case isTrue => cases h
      case isFalse hmissing =>
        obtain ⟨-, htooLong⟩ | ⟨-, hdone⟩ := ite_eq_iff.1 h
        · cases htooLong
        obtain rfl := Except.ok.inj hdone
        have hnone : fs.nodeAt? (place ++ [name]) = none := by simpa using hmissing
        have hbare : fs.bareAt? (place ++ [name]) = none := by simp [bareAt?, hnone]
        have hold : fs.bareAt? (place ++ [name]) ≠ some (.directory []) := by simp [hbare]
        have hisName := Path.isName_name hp hne hup
        obtain ⟨-, hname', hplace⟩ := holder_eq_ok.1 hholder
        have hlead := leadsToDirectory_of_missing hplace (hname' ▸ hisName) hnone
        refine ⟨rfl, fun q => ?_⟩
        rw [bareAt?_set (fun _ => rfl) hplace hold]
        split
        case isTrue heq =>
          subst heq
          refine .inr ⟨hbare, rfl, p.segments, [], (List.append_nil _).symm, ?_⟩
          exact locate_set hne hisName hholder (fun _ => rfl) (by simp) hold hlead
        case isFalse => exact .inl rfl

/-- Directories that are there will do, and those that are not are made from the top down. -/
theorem addsDirectories_makeDirectoriesFrom (fs : FileSystem) {p : Path} (hp : p.IsSpelt)
    (depth : Nat) : fs.AddsDirectories (fs.makeDirectoriesFrom p depth).1 p := by
  induction depth generalizing p with
  | zero =>
    rw [makeDirectoriesFrom]
    cases hmake : fs.makeDirectory p with
    | ok made => exact addsDirectories_makeDirectory hp hmake
    | error problem => exact .refl fs p
  | succ depth ih =>
    rw [makeDirectoriesFrom]
    cases hmake : fs.makeDirectory p with
    | ok made => exact addsDirectories_makeDirectory hp hmake
    | error problem =>
      cases problem with
      | missing =>
        obtain ⟨below, hbelow⟩ := List.dropLast_prefix p.segments
        have habove := ih hp.parent
        rcases hmade : fs.makeDirectoriesFrom p.parent depth with ⟨above, _ | e⟩
        · rw [hmade] at habove
          simp only
          cases hlast : above.makeDirectory p with
          | ok made =>
            exact habove.trans (addsDirectories_makeDirectory hp hlast) rfl ⟨below, hbelow.symm⟩
          | error problem => exact habove.trans (.refl above p) rfl ⟨below, hbelow.symm⟩
        · rw [hmade] at habove
          simp only
          exact habove.trans (.refl above p) rfl ⟨below, hbelow.symm⟩
      | _ => exact .refl fs p

/-! ## Replacing what a path names -/

theorem directory_dropLast {place : Place} (hplace : fs.bareAt? place = some (.directory [])) :
    fs.bareAt? place.dropLast = some (.directory []) := by
  rcases List.eq_nil_or_concat place with rfl | ⟨above, name, rfl⟩
  · exact hplace
  · rw [List.concat_eq_append] at hplace ⊢
    obtain ⟨entries, hnode⟩ := bareAt?_eq_directory.1 hplace
    obtain ⟨entries', hnode', -⟩ := directory_of_child hnode
    rw [List.dropLast_concat]
    exact bareAt?_eq_directory.2 ⟨entries', hnode'⟩

theorem isDirectory_of_locate {p : Path} {place : Place} (hlocate : fs.locate p = .ok place)
    (hplace : fs.bareAt? place = some (.directory [])) : fs.isDirectory p = true := by
  obtain ⟨entries, hnode⟩ := bareAt?_eq_directory.1 hplace
  unfold isDirectory find
  simp only [hlocate, bind, Except.bind, hnode]
  rfl

/-- A path that leads to no directory ends in a name, and that name stands for no directory where
the path is held. -/
theorem not_directory_of_holder {p : Path} (hp : p.IsSpelt) (hne : p.segments ≠ [])
    (hdirectory : fs.isDirectory p = false) {place : Place} {name : Text}
    (hholder : fs.holder p = .ok (place, name)) :
    Path.IsName p.name ∧ fs.bareAt? (place ++ [name]) ≠ some (.directory []) := by
  obtain ⟨-, rfl, hplace⟩ := holder_eq_ok.1 hholder
  obtain ⟨links, hlinks⟩ := locate_of_holder hne hholder
  have hup : p.name ≠ Path.up := by
    intro hup
    obtain ⟨entries, hnode⟩ := bareAt?_eq_directory.1 hplace
    have hlocate : fs.locate p = .ok place.dropLast := by
      rw [hlinks, hup, follow_up hnode, follow.eq_1]
    cases hdirectory.symm.trans (isDirectory_of_locate hlocate (directory_dropLast hplace))
  have hname := Path.isName_name hp hne hup
  refine ⟨hname, fun hinside => ?_⟩
  obtain ⟨inside, hnode⟩ := bareAt?_eq_directory.1 hinside
  have hlocate := hlinks.trans (follow_into hplace hname hnode (by simp))
  cases hdirectory.symm.trans (isDirectory_of_locate hlocate hinside)

end FileSystem
end ResourceFinder
