import Mathlib.Data.List.Infix
import ResourceFinder.Proofs.FileSystem.Folder
import ResourceFinder.Proofs.Ignore.Lines
import ResourceFinder.Proofs.Scan.Exclusion

/-
What the cache of a scan changes: nothing but how often an ignore file is read.

One directory after another asks for its ignore files, in whatever order, and each finds in the cache
what those before it have left there.  A cache that holds the rules of its directories, or that they
have none, gives each of them the chain that comes from reading every file on the way anew, and holds
afterwards what it held before and those directories besides.  So the walk of a scan is the walk that
has no cache at all.
-/

namespace ResourceFinder

namespace Ignore

/-- Whether a path leads to a file with at least one line that holds a pattern. -/
def holdsPatterns (fs : FileSystem) (p : Path) : Bool :=
  fs.isFile p && (fs.readText p).toOption.any fun t => !(patternLines t).isEmpty

theorem isSome_of_load {fs : FileSystem} {p : Path} {rules : Option Rules}
    (h : load fs p = .ok rules) : rules.isSome = holdsPatterns fs p := by
  cases hfile : fs.isFile p with
  | false =>
    have hnone : load fs p = .ok none := by
      rw [load, hfile]
      rfl
    rw [← Except.ok.inj (hnone.symm.trans h), holdsPatterns, hfile]
    rfl
  | true =>
    cases htext : fs.readText p with
    | error e =>
      have herror : load fs p = .error (.file e) := by
        rw [load, hfile, htext]
        rfl
      cases herror.symm.trans h
    | ok t =>
      rw [load_eq_rulesOf hfile htext, rulesOf] at h
      rw [holdsPatterns, hfile, htext]
      show rules.isSome = !(patternLines t).isEmpty
      by_cases hlines : (patternLines t).isEmpty = true
      · rw [if_pos hlines] at h
        rw [← Except.ok.inj h, hlines]
        rfl
      · rw [if_neg hlines] at h
        obtain ⟨found, -, hfound⟩ := map_eq_ok.1 h
        rw [← hfound, Bool.eq_false_iff.2 hlines]
        rfl

end Ignore

namespace Scan

variable {fs : FileSystem} {base : Path} {cache cache' : RuleCache}

/-! ## What is known afterwards -/

/-- What is known once a chain has been asked for: the rules of the directories on the way, and what
was known before. -/
theorem lookup_of_chainOf (hcache : CacheSound fs base cache) {ways : List (List Text)}
    {chain : RuleChain} (h : chainOf fs base cache ways = .ok (chain, cache')) (key : List Text) :
    cache'.lookup key =
      if key ∈ ways then (rulesIn fs base key).toOption else cache.lookup key := by
  induction ways generalizing cache chain with
  | nil => rw [(Prod.mk.inj (Except.ok.inj h)).2, if_neg List.not_mem_nil]
  | cons names ways ih =>
    obtain ⟨rules, rest, cache₁, hcached, hrest⟩ := chainOf_cons_eq_ok h
    obtain ⟨hrules, hcache₁⟩ := cachedRulesIn_eq_ok hcache hcached
    rw [ih hcache₁ hrest, lookup_of_cachedRulesIn hcached key]
    by_cases hkey : key ∈ ways
    · rw [if_pos hkey, if_pos (List.mem_cons_of_mem names hkey)]
    · rw [if_neg hkey]
      by_cases hnames : key = names
      · rw [if_pos hnames, if_pos (List.mem_cons.2 (.inl hnames)), hnames, hrules]
        rfl
      · rw [if_neg hnames, if_neg (by simp [hkey, hnames])]

/-- Nothing that was known is lost, as it was right. -/
theorem lookup_eq_some_of_chainOf (hcache : CacheSound fs base cache) {ways : List (List Text)}
    {chain : RuleChain} (h : chainOf fs base cache ways = .ok (chain, cache')) {key : List Text}
    {rules : Option Ignore.Rules} (hkey : cache.lookup key = some rules) :
    cache'.lookup key = some rules := by
  rw [lookup_of_chainOf hcache h key, hcache key rules hkey, hkey]
  split <;> rfl

theorem isSome_lookup_of_chainOf (hcache : CacheSound fs base cache) {ways : List (List Text)}
    {chain : RuleChain} (h : chainOf fs base cache ways = .ok (chain, cache')) {key : List Text}
    (hkey : key ∈ ways) : (cache'.lookup key).isSome = true := by
  have hanew : chainAnew fs base ways = .ok chain := by
    rw [← chainOf_map_fst hcache, h]
    rfl
  obtain ⟨rules, hrules⟩ := (chainAnew_eq_ok_iff.1 hanew).1 key hkey
  rw [lookup_of_chainOf hcache h key, if_pos hkey, hrules]
  rfl

/-! ## Chains without a cache -/

/-- The ways to a directory are all beginnings of the names that lead to it, the shortest first. -/
theorem waysTo_eq_inits (names : List Text) : waysTo names = names.inits := by
  refine List.ext_getElem (by simp [waysTo]) fun n _ _ => ?_
  simp [waysTo]

/-- A chain has one pair for each directory whose file holds a pattern. -/
theorem map_fst_of_chainAnew {ways : List (List Text)} {chain : RuleChain}
    (h : chainAnew fs base ways = .ok chain) :
    chain.map (·.1) = ways.filter fun way =>
      Ignore.holdsPatterns fs ((base.below way).child gitignoreName) := by
  induction ways generalizing chain with
  | nil =>
    rw [← Except.ok.inj h]
    rfl
  | cons names ways ih =>
    obtain ⟨hall, rfl⟩ := chainAnew_eq_ok_iff.1 h
    obtain ⟨⟨rules, hrules⟩, hrest⟩ := List.forall_mem_cons.1 hall
    have htail := ih (chainAnew_eq_ok_iff.2 ⟨hrest, rfl⟩)
    have hholds := Ignore.isSome_of_load hrules
    rw [List.filter_cons, ← htail, ← hholds]
    cases rules <;> simp [ignoreFiles, hrules]

/-! ## Directories in any order -/

/-- The chains of one directory after another, each asked for with the cache that those before it
leave. -/
def chainsTo (fs : FileSystem) (base : Path) (cache : RuleCache) :
    List (List Text) → Except Ignore.FileError (List RuleChain × RuleCache)
  | [] => .ok ([], cache)
  | names :: visits => do
    let (chain, cache) ← chainTo fs base cache names
    let (chains, cache) ← chainsTo fs base cache visits
    return (chain :: chains, cache)

theorem chainsTo_map_fst (hcache : CacheSound fs base cache) (visits : List (List Text)) :
    (chainsTo fs base cache visits).map (·.1) =
      visits.mapM fun names => chainAnew fs base (waysTo names) := by
  induction visits generalizing cache with
  | nil => rfl
  | cons names visits ih =>
    rw [chainsTo, List.mapM_cons, ← chainOf_map_fst hcache]
    cases hchain : chainOf fs base cache (waysTo names) with
    | error e =>
      rw [chainTo, hchain]
      rfl
    | ok found =>
      obtain ⟨chain, cache₁⟩ := found
      rw [chainTo, hchain]
      simp only [Except.map, bind, Except.bind]
      rw [← ih (hcache.chainOf hchain)]
      cases chainsTo fs base cache₁ visits <;> rfl

/-! ## The walk of a scan -/

namespace DirectoryScan

/-- The ignore files that count for the entries of a directory, each read anew. -/
def chainAnew (d : DirectoryScan) (names : List Text) : Except Ignore.FileError RuleChain :=
  if d.config.respectGitignore then Scan.chainAnew d.fs d.base (waysTo names) else .ok []

mutual

/-- The scan of a directory that keeps nothing of one directory for the next one. -/
def scanFolderAnew (d : DirectoryScan) (names : List Text) : Folder → Scan
  | .mk files folders =>
    match d.chainAnew names with
    | .error e => .ofFault (.ofIgnoreFile e)
    | .ok chain =>
      let here := ((files.map (names ++ [·])).filter (d.admits chain)).map d.candidate
      (Scan.ofCandidates here).append (scanFoldersAnew d chain names folders)

def scanFoldersAnew (d : DirectoryScan) (chain : RuleChain) (names : List Text) :
    List (Text × Folder) → Scan
  | [] => .ofCandidates []
  | (name, folder) :: rest =>
    if (d.exclusion chain).excludes (names ++ [name]) true then
      scanFoldersAnew d chain names rest
    else (scanFolderAnew d (names ++ [name]) folder).append (scanFoldersAnew d chain names rest)

end

variable {d : DirectoryScan}

theorem chain_map_fst (hcache : CacheSound d.fs d.base cache) (names : List Text) :
    (d.chain cache names).map (·.1) = d.chainAnew names := by
  unfold chain chainAnew
  split
  · exact chainOf_map_fst hcache (waysTo names)
  · rfl

/-- A folder comes to the same as without a cache, and leaves the cache sound. -/
def ScansAnew (d : DirectoryScan) (names : List Text) (folder : Folder) : Prop :=
  ∀ cache, CacheSound d.fs d.base cache →
    (d.scanFolder names cache folder).1 = d.scanFolderAnew names folder ∧
      CacheSound d.fs d.base (d.scanFolder names cache folder).2

theorem scanFolders_anew (chain : RuleChain) {names : List Text} {folders : List (Text × Folder)}
    (h : ∀ x ∈ folders, d.ScansAnew (names ++ [x.1]) x.2)
    (hcache : CacheSound d.fs d.base cache) :
    (d.scanFolders chain names cache folders).1 = d.scanFoldersAnew chain names folders ∧
      CacheSound d.fs d.base (d.scanFolders chain names cache folders).2 := by
  induction folders generalizing cache with
  | nil => exact ⟨rfl, hcache⟩
  | cons x rest ih =>
    obtain ⟨name, folder⟩ := x
    obtain ⟨hfolder, hrest⟩ := List.forall_mem_cons.1 h
    rw [scanFolders, scanFoldersAnew]
    split
    · exact ih hrest hcache
    · obtain ⟨hscan, hcache₁⟩ := hfolder cache hcache
      obtain ⟨hmore, hcache₂⟩ := ih hrest hcache₁
      exact ⟨congrArg₂ Scan.append hscan hmore, hcache₂⟩

theorem scanFolder_anew (folder : Folder) (names : List Text) : d.ScansAnew names folder := by
  induction folder using Folder.induct generalizing names with
  | mk files folders ih =>
    intro cache hcache
    have hanew := chain_map_fst hcache names
    rw [scanFolder, scanFolderAnew, ← hanew]
    cases hchain : d.chain cache names with
    | error e => exact ⟨rfl, hcache⟩
    | ok found =>
      obtain ⟨chain, cache₁⟩ := found
      have hcache₁ := (chain_eq_ok hcache hchain).2
      obtain ⟨hbelow, hcache₂⟩ := scanFolders_anew chain (fun x hx => ih x hx _) hcache₁
      exact ⟨by simp only [hbelow, Except.map], hcache₂⟩

end DirectoryScan

/-! ## Together -/

/-- The ignore files that count in a directory are those of the directories from the top down to it
whose file holds a pattern, with the rules of that file, whatever a sound cache holds.  It is sound
afterwards, knows each directory on the way, and has lost nothing.  So directories that are visited
one after another, in any order, have the chains that they have on their own, and a scan is the walk
that reads every file anew. -/
theorem chain_independent_of_cache (d : DirectoryScan) {cache : RuleCache}
    (hcache : CacheSound d.fs d.base cache) :
    (∀ names,
      (chainTo d.fs d.base cache names).map (·.1) = chainAnew d.fs d.base names.inits ∧
      ∀ chain cache', chainTo d.fs d.base cache names = .ok (chain, cache') →
        chain.map (·.1) = names.inits.filter (fun way =>
          Ignore.holdsPatterns d.fs ((d.base.below way).child gitignoreName)) ∧
        (∀ way rules, (way, rules) ∈ chain → rulesIn d.fs d.base way = .ok (some rules)) ∧
        CacheSound d.fs d.base cache' ∧
        (∀ way, way <+: names → (cache'.lookup way).isSome = true) ∧
        ∀ key rules, cache.lookup key = some rules → cache'.lookup key = some rules) ∧
    (∀ visits, (chainsTo d.fs d.base cache visits).map (·.1) =
      visits.mapM fun names => chainAnew d.fs d.base names.inits) ∧
    ∀ names folder, (d.scanFolder names cache folder).1 = d.scanFolderAnew names folder ∧
      CacheSound d.fs d.base (d.scanFolder names cache folder).2 := by
  simp only [← waysTo_eq_inits]
  refine ⟨fun names => ⟨chainOf_map_fst hcache (waysTo names), ?_⟩, chainsTo_map_fst hcache,
    fun names folder => DirectoryScan.scanFolder_anew folder names cache hcache⟩
  intro chain cache' hchain
  have hanew : chainAnew d.fs d.base (waysTo names) = .ok chain := by
    rw [← chainOf_map_fst hcache, ← chainTo, hchain]
    rfl
  refine ⟨map_fst_of_chainAnew hanew, fun way rules hmem => ?_, hcache.chainOf hchain,
    fun way hway => isSome_lookup_of_chainOf hcache hchain (mem_waysTo.2 hway),
    fun key rules hkey => lookup_eq_some_of_chainOf hcache hchain hkey⟩
  rw [(chainAnew_eq_ok_iff.1 hanew).2] at hmem
  exact (mem_ignoreFiles.1 hmem).2

/-- An ignore file at the top, one of a comment alone in `d`, and one in `d/e`. -/
def nestedTree : FileSystem :=
  ⟨[(".gitignore", .file [120]),
    ("d", .directory [(".gitignore", .file [35]),
      ("e", .directory [(".gitignore", .file [33, 120])])])], []⟩

theorem chain_independent_of_cache_nested :
    let base : Path := ⟨.root, []⟩
    let cache : RuleCache := [([("d" : Text)], none)]
    CacheSound nestedTree base cache ∧
      ∃ chain cache', chainTo nestedTree base cache ["d", "e"] = .ok (chain, cache') ∧
        chain.map (·.1) = [[], [("d" : Text), "e"]] ∧
        chainAnew nestedTree base [("d" : Text), "e"].inits = .ok chain ∧
        cache'.lookup [("d" : Text)] = some none ∧ (cache'.lookup []).isSome = true := by
  intro base cache
  have hcache : CacheSound nestedTree base cache := by
    refine cacheSound_nil.cons ?_
    cbv
  have hnames : (chainTo nestedTree base cache ["d", "e"]).map (·.1.map (·.1)) =
      .ok [[], [("d" : Text), "e"]] := by cbv
  obtain ⟨⟨chain, cache'⟩, hchain, hmap⟩ := map_eq_ok.1 hnames
  obtain ⟨hall, -, -⟩ := chain_independent_of_cache
    ⟨nestedTree, {}, [], base, none⟩ hcache
  obtain ⟨hanew, hafter⟩ := hall ["d", "e"]
  obtain ⟨-, -, -, hknown, hkept⟩ := hafter chain cache' hchain
  refine ⟨hcache, chain, cache', hchain, hmap, ?_, hkept _ _ rfl, hknown [] List.nil_prefix⟩
  rw [← hanew, hchain]
  rfl

end Scan
end ResourceFinder
