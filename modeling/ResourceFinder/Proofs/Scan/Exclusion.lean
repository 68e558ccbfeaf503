import ResourceFinder.Proofs.Except.Failure
import ResourceFinder.Scan.FileSystem

/-
What keeps an entry out of a scan, said of the ignore files themselves.

A scan knows the rules of the ignore files it has met, so what it asks of them depends on the cache.
While the cache holds nothing but the rules that the files give, the answer does not: it is the one
that comes from reading each file anew.
-/

namespace ResourceFinder
namespace Scan

/-! ## The cache -/

section

variable {fs : FileSystem} {base : Path} {cache cache' : RuleCache}

def CacheSound (fs : FileSystem) (base : Path) (cache : RuleCache) : Prop :=
  ∀ names rules, cache.lookup names = some rules → rulesIn fs base names = .ok rules

theorem cacheSound_nil : CacheSound fs base [] := by
  intro names rules h
  cases h

theorem CacheSound.cons (hcache : CacheSound fs base cache) {names : List Text}
    {rules : Option Ignore.Rules} (h : rulesIn fs base names = .ok rules) :
    CacheSound fs base ((names, rules) :: cache) := by
  intro names' rules' hlookup
  rw [List.lookup_cons] at hlookup
  cases heq : names' == names with
  | true =>
    rw [heq] at hlookup
    obtain rfl := Option.some.inj hlookup
    rw [eq_of_beq heq]
    exact h
  | false =>
    rw [heq] at hlookup
    exact hcache names' rules' hlookup

/-- The cache hides no rules and makes none up. -/
theorem cachedRulesIn_map_fst (hcache : CacheSound fs base cache) (names : List Text) :
    (cachedRulesIn fs base cache names).map (·.1) = rulesIn fs base names := by
  unfold cachedRulesIn
  cases hlookup : cache.lookup names with
  | some rules => exact (hcache names rules hlookup).symm
  | none => cases rulesIn fs base names <;> rfl

theorem cachedRulesIn_eq_ok (hcache : CacheSound fs base cache) {names : List Text}
    {rules : Option Ignore.Rules} (h : cachedRulesIn fs base cache names = .ok (rules, cache')) :
    rulesIn fs base names = .ok rules ∧ CacheSound fs base cache' := by
  have hrules : rulesIn fs base names = .ok rules := by
    rw [← cachedRulesIn_map_fst hcache, h]
    rfl
  refine ⟨hrules, ?_⟩
  unfold cachedRulesIn at h
  cases hlookup : cache.lookup names with
  | some rules' =>
    rw [hlookup] at h
    exact (Prod.mk.inj (Except.ok.inj h)).2 ▸ hcache
  | none =>
    rw [hlookup, hrules] at h
    exact (Prod.mk.inj (Except.ok.inj h)).2 ▸ hcache.cons hrules

/-- What is known once a directory has been asked for: its rules and what was known before. -/
theorem lookup_of_cachedRulesIn {names : List Text} {rules : Option Ignore.Rules}
    (h : cachedRulesIn fs base cache names = .ok (rules, cache')) (key : List Text) :
    cache'.lookup key = if key = names then some rules else cache.lookup key := by
  unfold cachedRulesIn at h
  cases hlookup : cache.lookup names with
  | some rules' =>
    rw [hlookup] at h
    obtain ⟨rfl, rfl⟩ := Prod.mk.inj (Except.ok.inj h)
    by_cases hkey : key = names
    · rw [if_pos hkey, hkey, hlookup]
    · rw [if_neg hkey]
  | none =>
    rw [hlookup] at h
    obtain ⟨rules', -, hpair⟩ := map_eq_ok.1 h
    obtain ⟨rfl, rfl⟩ := Prod.mk.inj hpair
    by_cases hkey : key = names
    · rw [if_pos hkey, hkey, List.lookup_cons_self]
    · rw [if_neg hkey, List.lookup_cons, beq_false_of_ne hkey]

/-! ## Chains -/

/-- The ignore files in some directories, each of them read anew. -/
def chainAnew (fs : FileSystem) (base : Path) (ways : List (List Text)) :
    Except Ignore.FileError RuleChain :=
  (ways.mapM fun names => (rulesIn fs base names).map (·.map (names, ·))).map (·.filterMap id)

theorem chainAnew_cons (names : List Text) (ways : List (List Text)) :
    chainAnew fs base (names :: ways) = (do
      let rules ← rulesIn fs base names
      let chain ← chainAnew fs base ways
      return (rules.map (names, ·)).toList ++ chain) := by
  simp only [chainAnew, List.mapM_cons]
  cases rulesIn fs base names with
  | error e => rfl
  | ok rules =>
    cases ways.mapM fun names => (rulesIn fs base names).map (·.map (names, ·)) with
    | error e => rfl
    | ok found => cases rules <;> rfl

theorem chainOf_map_fst (hcache : CacheSound fs base cache) (ways : List (List Text)) :
    (chainOf fs base cache ways).map (·.1) = chainAnew fs base ways := by
  induction ways generalizing cache with
  | nil => rfl
  | cons names ways ih =>
    rw [chainOf, chainAnew_cons, ← cachedRulesIn_map_fst hcache]
    cases hcached : cachedRulesIn fs base cache names with
    | error e => rfl
    | ok found =>
      obtain ⟨rules, cache₁⟩ := found
      simp only [Except.map, bind, Except.bind]
      rw [← ih (cachedRulesIn_eq_ok hcache hcached).2]
      cases chainOf fs base cache₁ ways <;> rfl

theorem chainOf_cons_eq_ok {names : List Text} {ways : List (List Text)} {chain : RuleChain}
    (h : chainOf fs base cache (names :: ways) = .ok (chain, cache')) :
    ∃ rules rest cache₁, cachedRulesIn fs base cache names = .ok (rules, cache₁) ∧
      chainOf fs base cache₁ ways = .ok (rest, cache') := by
  rw [chainOf] at h
  cases hcached : cachedRulesIn fs base cache names with
  | error e =>
    rw [hcached] at h
    cases h
  | ok found =>
    obtain ⟨rules, cache₁⟩ := found
    cases hrest : chainOf fs base cache₁ ways with
    | error e =>
      simp only [hcached, hrest, bind, Except.bind] at h
      cases h
    | ok found =>
      obtain ⟨rest, cache₂⟩ := found
      simp only [hcached, hrest, bind, Except.bind] at h
      obtain ⟨-, rfl⟩ := Prod.mk.inj (Except.ok.inj h)
      exact ⟨rules, rest, cache₁, rfl, hrest⟩

theorem CacheSound.chainOf (hcache : CacheSound fs base cache) {ways : List (List Text)}
    {chain : RuleChain} (h : chainOf fs base cache ways = .ok (chain, cache')) :
    CacheSound fs base cache' := by
  induction ways generalizing cache chain with
  | nil => exact (Prod.mk.inj (Except.ok.inj h)).2 ▸ hcache
  | cons names ways ih =>
    obtain ⟨rules, rest, cache₁, hcached, hrest⟩ := chainOf_cons_eq_ok h
    exact ih (cachedRulesIn_eq_ok hcache hcached).2 hrest

/-- The rules of those directories that have an ignore file. -/
def ignoreFiles (fs : FileSystem) (base : Path) (ways : List (List Text)) : RuleChain :=
  ways.filterMap fun names =>
    match rulesIn fs base names with
    | .ok rules => rules.map (names, ·)
    | .error _ => none

theorem mem_ignoreFiles {ways : List (List Text)} {names : List Text} {rules : Ignore.Rules} :
    (names, rules) ∈ ignoreFiles fs base ways ↔
      names ∈ ways ∧ rulesIn fs base names = .ok (some rules) := by
  rw [ignoreFiles, List.mem_filterMap]
  constructor
  · rintro ⟨names', hmem, h⟩
    cases hrules : rulesIn fs base names' with
    | error e => simp [hrules] at h
    | ok rules' =>
      simp only [hrules, Option.map_eq_some_iff, Prod.mk.injEq] at h
      obtain ⟨rules, rfl, rfl, rfl⟩ := h
      exact ⟨hmem, hrules⟩
  · rintro ⟨hmem, hrules⟩
    exact ⟨names, hmem, by simp [hrules]⟩

/-- The files that can be read are there if none of them cannot. -/
theorem chainAnew_eq_ok_iff {ways : List (List Text)} {chain : RuleChain} :
    chainAnew fs base ways = .ok chain ↔
      (∀ names ∈ ways, ∃ rules, rulesIn fs base names = .ok rules) ∧
        chain = ignoreFiles fs base ways := by
  induction ways generalizing chain with
  | nil =>
    have hnil : chainAnew fs base [] = .ok [] := rfl
    rw [hnil, Except.ok.injEq, eq_comm]
    exact (and_iff_right (by simp)).symm
  | cons names ways ih =>
    rw [chainAnew_cons, List.forall_mem_cons]
    cases hrules : rulesIn fs base names with
    | error e => simp [bind, Except.bind]
    | ok rules =>
      have hhead : ignoreFiles fs base (names :: ways) =
          (rules.map (names, ·)).toList ++ ignoreFiles fs base ways := by
        cases rules <;> simp [ignoreFiles, hrules]
      rw [hhead]
      cases hrest : chainAnew fs base ways with
      | error e =>
        have hnone : ¬∀ names ∈ ways, ∃ rules, rulesIn fs base names = .ok rules := by
          intro hall
          cases hrest.symm.trans (ih.2 ⟨hall, rfl⟩)
        simp [bind, Except.bind, hnone]
      | ok rest =>
        obtain ⟨hall, rfl⟩ := ih.1 hrest
        show Except.ok _ = Except.ok chain ↔ _
        rw [Except.ok.injEq, eq_comm]
        exact (and_iff_right ⟨⟨rules, rfl⟩, hall⟩).symm

theorem chainOf_eq_ok {ways : List (List Text)} {chain : RuleChain}
    (hcache : CacheSound fs base cache) (h : chainOf fs base cache ways = .ok (chain, cache')) :
    chain = ignoreFiles fs base ways ∧ CacheSound fs base cache' := by
  have hanew : chainAnew fs base ways = .ok chain := by
    rw [← chainOf_map_fst hcache, h]
    rfl
  exact ⟨(chainAnew_eq_ok_iff.1 hanew).2, hcache.chainOf h⟩

theorem chainOf_eq {ways : List (List Text)} (hcache : CacheSound fs base cache)
    (h : ∀ names ∈ ways, ∃ rules, rulesIn fs base names = .ok rules) :
    ∃ cache', chainOf fs base cache ways = .ok (ignoreFiles fs base ways, cache') ∧
      CacheSound fs base cache' := by
  have hanew := chainOf_map_fst hcache ways
  rw [chainAnew_eq_ok_iff.2 ⟨h, rfl⟩] at hanew
  obtain ⟨⟨chain, cache'⟩, hchain, rfl⟩ := map_eq_ok.1 hanew
  exact ⟨cache', hchain, hcache.chainOf hchain⟩

theorem mem_waysTo {way names : List Text} : way ∈ waysTo names ↔ way <+: names := by
  rw [waysTo, List.mem_map]
  constructor
  · rintro ⟨n, -, rfl⟩
    exact List.take_prefix n names
  · intro h
    refine ⟨way.length, ?_, (List.prefix_iff_eq_take.1 h).symm⟩
    rw [List.mem_range]
    exact Nat.lt_succ_of_le h.length_le

end

/-! ## Exclusion -/

/-- Whether an entry below a base is excluded, given the names from there to it.  The patterns of
the configuration and the ignore file at the top see the way from the base.  An ignore file in a
directory from the base down to the entry's own sees the way from that directory. -/
inductive Excluded (fs : FileSystem) (config : ScanConfig) (base : Path) (names : List Text)
    (isDirectory : Bool) : Prop where
  | byPatterns {rules : Ignore.Rules} (hrules : Scanner.patternsOf config = .ok rules)
      (h : rules.excludes (entryText names isDirectory) = true)
  | byToolFile {rules : Ignore.Rules}
      (hrules : Ignore.load fs (base.joinText config.ignoreFileName) = .ok (some rules))
      (h : rules.excludes (entryText names isDirectory) = true)
  | byIgnoreFile {above below : List Text} {rules : Ignore.Rules}
      (hrespect : config.respectGitignore = true) (hnames : names = above ++ below)
      (hbelow : below ≠ []) (hrules : rulesIn fs base above = .ok (some rules))
      (h : rules.excludes (entryText below isDirectory) = true)

theorem Exclusion.excludes_iff {patterns : Ignore.Rules} {toolRules : Option Ignore.Rules}
    {chain : RuleChain} {names : List Text} {isDirectory : Bool} :
    Exclusion.excludes ⟨patterns, toolRules, chain⟩ names isDirectory = true ↔
      patterns.excludes (entryText names isDirectory) = true ∨
      (∃ rules, toolRules = some rules ∧
        rules.excludes (entryText names isDirectory) = true) ∨
      ∃ above rules, (above, rules) ∈ chain ∧
        rules.excludes (entryText (names.drop above.length) isDirectory) = true := by
  rw [Exclusion.excludes, Bool.or_eq_true, Bool.or_eq_true, or_assoc, Option.any_eq_true,
    List.any_eq_true, Prod.exists]

namespace DirectoryScan

variable {d : DirectoryScan}

/-- The ignore files that count for the entries of a directory, without a cache. -/
def ignoreChain (d : DirectoryScan) (names : List Text) : RuleChain :=
  if d.config.respectGitignore then ignoreFiles d.fs d.base (waysTo names) else []

theorem mem_ignoreChain {names above : List Text} {rules : Ignore.Rules} :
    (above, rules) ∈ d.ignoreChain names ↔ d.config.respectGitignore = true ∧
      above <+: names ∧ rulesIn d.fs d.base above = .ok (some rules) := by
  unfold ignoreChain
  cases hrespect : d.config.respectGitignore with
  | true => simp [mem_ignoreFiles, mem_waysTo]
  | false => simp

/-- Whether the ignore file of a directory, if it counts, has rules to be read. -/
def HasRules (d : DirectoryScan) (names : List Text) : Prop :=
  d.config.respectGitignore = true → ∃ rules, rulesIn d.fs d.base names = .ok rules

theorem chain_eq {cache : RuleCache} (hcache : CacheSound d.fs d.base cache) {names : List Text}
    (h : ∀ way, way <+: names → d.HasRules way) :
    ∃ cache', d.chain cache names = .ok (d.ignoreChain names, cache') ∧
      CacheSound d.fs d.base cache' := by
  unfold chain ignoreChain
  cases hrespect : d.config.respectGitignore with
  | false => exact ⟨cache, rfl, hcache⟩
  | true => exact chainOf_eq hcache fun way hway => h way (mem_waysTo.1 hway) hrespect

theorem chain_eq_ok {cache cache' : RuleCache} (hcache : CacheSound d.fs d.base cache)
    {names : List Text} {chain : RuleChain} (h : d.chain cache names = .ok (chain, cache')) :
    chain = d.ignoreChain names ∧ CacheSound d.fs d.base cache' := by
  unfold DirectoryScan.chain at h
  unfold ignoreChain
  cases hrespect : d.config.respectGitignore with
  | false =>
    rw [hrespect] at h
    obtain ⟨rfl, rfl⟩ := Prod.mk.inj (Except.ok.inj h)
    exact ⟨rfl, hcache⟩
  | true =>
    rw [hrespect] at h
    exact chainOf_eq_ok hcache h

/-- Whether a scan leaves an entry out for the rules that count in the directory of the entry. -/
def hides (d : DirectoryScan) (names : List Text) (isDirectory : Bool) : Bool :=
  (d.exclusion (d.ignoreChain names.dropLast)).excludes names isDirectory

/-- An entry is hidden for the reasons that exclude it. -/
theorem hides_iff (hpatterns : Scanner.patternsOf d.config = .ok d.patterns)
    (htool : Ignore.load d.fs (d.base.joinText d.config.ignoreFileName) = .ok d.toolRules)
    {names : List Text} (hne : names ≠ []) {isDirectory : Bool} :
    d.hides names isDirectory = true ↔ Excluded d.fs d.config d.base names isDirectory := by
  rw [hides, exclusion, Exclusion.excludes_iff]
  constructor
  · rintro (h | ⟨rules, hrules, h⟩ | ⟨above, rules, hmem, h⟩)
    · exact .byPatterns hpatterns h
    · exact .byToolFile (hrules ▸ htool) h
    · obtain ⟨hrespect, ⟨middle, hmiddle⟩, hrules⟩ := mem_ignoreChain.1 hmem
      have hnames : names = above ++ (middle ++ [names.getLast hne]) := by
        rw [← List.append_assoc, hmiddle, List.dropLast_concat_getLast]
      refine .byIgnoreFile hrespect hnames (by simp) hrules ?_
      rw [hnames, List.drop_left] at h
      exact h
  · rintro (⟨hrules, h⟩ | ⟨hrules, h⟩ | ⟨hrespect, rfl, hbelow, hrules, h⟩)
    · obtain rfl := Except.ok.inj (hpatterns.symm.trans hrules)
      exact Or.inl h
    · exact Or.inr (Or.inl ⟨_, Except.ok.inj (htool.symm.trans hrules), h⟩)
    · refine Or.inr (Or.inr ⟨_, _, mem_ignoreChain.2 ⟨hrespect, ?_, hrules⟩, ?_⟩)
      · rw [List.dropLast_append_of_ne_nil hbelow]
        exact List.prefix_append _ _
      · rw [List.drop_left]
        exact h

end DirectoryScan
end Scan
end ResourceFinder
