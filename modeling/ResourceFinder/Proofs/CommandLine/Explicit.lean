import ResourceFinder.Proofs.CommandLine.Given

/-
Which options a reader finds given that knows only those of a configuration file.

It finds the options that an argument names.  An option that is given without being named shares an
argument with one before it, so it has a short spelling; of the options of a configuration file only
the root has one.
-/

namespace ResourceFinder
namespace CommandLine

open ResourceFinder.CommandLine.Flag

/-! ## Options that are named and options that are given -/

/-- Some argument is, on its face, the option. -/
def Names (tokens : List (Text × Token)) (f : Flag) : Prop :=
  ∃ x ∈ tokens, ∃ s, x.2 = .known s ∧ s.flag = f

theorem Names.cons {tokens : List (Text × Token)} {f : Flag} (h : Names tokens f)
    (x : Text × Token) : Names (x :: tokens) f := by
  obtain ⟨y, hy, hnamed⟩ := h
  exact ⟨y, List.mem_cons_of_mem x hy, hnamed⟩

theorem cluster_eq_ok {flags : List Flag} {f : Flag} {spelling : Text} {value v : Option Text}
    {before : List Flag} {last : Flag}
    (h : cluster flags f spelling value = .ok (before, last, v)) :
    f ∈ before ++ [last] ∧
      ∀ g ∈ before ++ [last], g = f ∨ ∃ c, ([.char '-', c], g) ∈ spellingsOf flags := by
  have halone {f : Flag} {value : Option Text} {before : List Flag}
      (h : (.ok ([], f, value) : Except UsageError _) = .ok (before, last, v)) :
      f ∈ before ++ [last] ∧
        ∀ g ∈ before ++ [last], g = f ∨ ∃ c, ([.char '-', c], g) ∈ spellingsOf flags := by
    simp only [Except.ok.injEq, Prod.mk.injEq] at h
    obtain ⟨rfl, rfl, -⟩ := h
    simp
  induction f, spelling, value using cluster.induct flags generalizing before with
  | case1 f spelling =>
    rw [cluster.eq_1] at h
    exact halone h
  | case2 f spelling htakes =>
    rw [cluster.eq_2, if_pos htakes] at h
    exact halone h
  | case3 f spelling htakes =>
    rw [cluster.eq_2, if_neg htakes] at h
    cases h
  | case4 f spelling c rest htakes =>
    rw [cluster.eq_3, if_pos htakes] at h
    exact halone h
  | case5 f spelling c rest htakes hdash =>
    rw [cluster.eq_3, if_neg htakes, if_pos hdash] at h
    cases h
  | case6 f spelling c rest htakes hdash next =>
    rename_i hlookup
    have hnone : (spellingsOf flags).lookup [.char '-', c] = none := hlookup
    rw [cluster.eq_3, if_neg htakes, if_neg hdash] at h
    simp only [hnone] at h
    cases h
  | case7 f spelling c rest htakes hdash next g hlookup value' =>
    rename_i ih
    have hsome : (spellingsOf flags).lookup [.char '-', c] = some g := hlookup
    rw [cluster.eq_3, if_neg htakes, if_neg hdash] at h
    simp only [hsome] at h
    obtain ⟨⟨before', last', v'⟩, hnext, heq⟩ := map_eq_ok.1 h
    simp only [Prod.mk.injEq] at heq
    obtain ⟨rfl, rfl, rfl⟩ := heq
    refine ⟨List.mem_cons_self, fun g' hg' => ?_⟩
    rcases List.mem_cons.1 hg' with rfl | hg'
    · exact Or.inl rfl
    · rcases (ih hnext).2 g' hg' with rfl | hshort
      · exact Or.inr ⟨c, mem_of_lookup hlookup⟩
      · exact Or.inr hshort

theorem flags_of_optionAt {flags : List Flag} {s : Spelled} {after rest : List (Text × Token)}
    {given : List Given} (h : optionAt flags s after = .ok (given, rest)) :
    (∃ g ∈ given, g.flag = s.flag) ∧
      ∀ g ∈ given, g.flag = s.flag ∨ ∃ c, ([.char '-', c], g.flag) ∈ spellingsOf flags := by
  obtain ⟨before, last, value, text, hcluster, -, rfl, -⟩ := optionAt_eq_ok.1 h
  obtain ⟨hfirst, hall⟩ := cluster_eq_ok hcluster
  have hflags : (before.map (Given.mk · []) ++ [Given.mk last text]).map Given.flag =
      before ++ [last] := by
    simp [Function.comp_def]
  constructor
  · rw [← hflags] at hfirst
    exact List.mem_map.1 hfirst
  · intro g hg
    refine hall g.flag ?_
    rw [← hflags]
    exact List.mem_map_of_mem hg

theorem names_of_optionAt {flags : List Flag} {s : Spelled} {after rest : List (Text × Token)}
    {given : List Given} (h : optionAt flags s after = .ok (given, rest)) (argument : Text)
    (f : Flag) : Names ((argument, .known s) :: after) f ↔ s.flag = f ∨ Names rest f := by
  have hrest : Names after f ↔ Names rest f := by
    rcases rest_of_optionAt h with rfl | ⟨text, rfl⟩
    · exact Iff.rfl
    · simp [Names]
  rw [← hrest]
  simp [Names]

theorem Reads.given_of_names {flags : List Flag} {tokens : List (Text × Token)}
    {given : List Given} {f : Flag} (h : Reads flags tokens given) (hf : Names tokens f) :
    ∃ g ∈ given, g.flag = f := by
  induction h with
  | nil =>
    obtain ⟨x, hx, -⟩ := hf
    cases hx
  | other hx _ ih =>
    obtain ⟨y, hy, s, hs, hflag⟩ := hf
    rcases List.mem_cons.1 hy with rfl | hy
    · exact absurd hs (hx s)
    · exact ih ⟨y, hy, s, hs, hflag⟩
  | @option argument s after given rest more h _ ih =>
    rcases (names_of_optionAt h argument f).1 hf with rfl | hf
    · obtain ⟨g, hg, hflag⟩ := (flags_of_optionAt h).1
      exact ⟨g, List.mem_append_left more hg, hflag⟩
    · obtain ⟨g, hg, hflag⟩ := ih hf
      exact ⟨g, List.mem_append_right given hg, hflag⟩

theorem Reads.names_of_given {flags : List Flag} {tokens : List (Text × Token)}
    {given : List Given} {g : Given} (h : Reads flags tokens given) (hg : g ∈ given) :
    Names tokens g.flag ∨ ∃ c, ([.char '-', c], g.flag) ∈ spellingsOf flags := by
  induction h with
  | nil => cases hg
  | other hx _ ih =>
    rcases ih hg with hnamed | hshort
    · exact Or.inl (hnamed.cons _)
    · exact Or.inr hshort
  | @option argument s after given rest more h _ ih =>
    rw [names_of_optionAt h]
    rcases List.mem_append.1 hg with hg | hg
    · rcases (flags_of_optionAt h).2 g hg with hflag | hshort
      · exact Or.inl (Or.inl hflag.symm)
      · exact Or.inr hshort
    · rcases ih hg with hnamed | hshort
      · exact Or.inl (Or.inr hnamed)
      · exact Or.inr hshort

/-! ## The reader of some options -/

/-- An argument cannot hold more than one option that a configuration file can set: the only one of
them without a value has no short spelling. -/
theorem cluster_configurable {flags : List Flag} {f : Flag} {spelling : Text} {value : Option Text}
    {result : List Flag × Flag × Option Text} (hf : f ∈ configurable)
    (hspelling : (spelling, f) ∈ spellingsOf all) (h : cluster flags f spelling value = .ok result)
    (flags' : List Flag) :
    result = ([], f, value) ∧ cluster flags' f spelling value = .ok result := by
  have hlong : f.takesValue = false → (spelling.drop 1).head? = some (.char '-') := by
    have hall : ∀ x ∈ spellingsOf all, x.2 ∈ configurable → x.2.takesValue = false →
        (x.1.drop 1).head? = some (.char '-') := by decide
    exact hall _ hspelling hf
  cases value with
  | none =>
    rw [cluster.eq_1] at h ⊢
    exact ⟨(Except.ok.inj h).symm, h⟩
  | some value =>
    cases value with
    | nil =>
      rw [cluster.eq_2] at h ⊢
      by_cases htakes : f.takesValue = true
      · rw [if_pos htakes] at h ⊢
        exact ⟨(Except.ok.inj h).symm, h⟩
      · rw [if_neg htakes] at h
        cases h
    | cons c rest =>
      rw [cluster.eq_3] at h ⊢
      by_cases htakes : f.takesValue = true
      · rw [if_pos htakes] at h ⊢
        exact ⟨(Except.ok.inj h).symm, h⟩
      · rw [if_neg htakes, if_pos (hlong (by simpa using htakes))] at h
        cases h

theorem optionAt_configurable {s : Spelled} {after rest after' : List (Text × Token)}
    {given : List Given} (hs : s.flag ∈ configurable)
    (hspelling : (s.spelling, s.flag) ∈ spellingsOf all)
    (h : optionAt all s after = .ok (given, rest))
    (hafter : List.Forall₂ (fun x y => x.1 = y.1 ∧ Seen x.2 y.2) after after') :
    ∃ rest', optionAt configurable s after' = .ok (given, rest') ∧
      (∀ g ∈ given, g.flag = s.flag) ∧
      List.Forall₂ (fun x y => x.1 = y.1 ∧ Seen x.2 y.2) rest rest' := by
  obtain ⟨before, last, value, text, hcluster, hvalue, hgiven, hchecked⟩ := optionAt_eq_ok.1 h
  obtain ⟨hresult, hcluster'⟩ := cluster_configurable hs hspelling hcluster configurable
  have hflag : ∀ g ∈ given, g.flag = s.flag := by
    simp only [Prod.mk.injEq] at hresult
    obtain ⟨rfl, rfl, -⟩ := hresult
    simp [hgiven]
  rcases valueFor_eq_ok hvalue with ⟨rfl, hany⟩ | ⟨rfl, hany⟩
  · exact ⟨after', optionAt_eq_ok.2 ⟨before, last, value, text, hcluster', hany after', hgiven,
      hchecked⟩, hflag, hafter⟩
  · cases hafter with
    | @cons _ y _ rest' hy hrest =>
      obtain ⟨argument, token⟩ := y
      obtain ⟨rfl, hseen⟩ := hy
      cases hseen
      exact ⟨rest', optionAt_eq_ok.2 ⟨before, last, value, _, hcluster', hany rest', hgiven,
        hchecked⟩, hflag, hrest⟩

/-- What the reader of all options reads, the reader of some reads too; it passes over the other
options, and over their values, which are no options to it either. -/
theorem Reads.configurable {tokens tokens' : List (Text × Token)} {given : List Given}
    (h : Reads all tokens given)
    (hspellings : ∀ x ∈ tokens, ∀ s, x.2 = .known s → (s.spelling, s.flag) ∈ spellingsOf all)
    (hseen : List.Forall₂ (fun x y => x.1 = y.1 ∧ Seen x.2 y.2) tokens tokens') :
    ∃ given', Reads Flag.configurable tokens' given' ∧ ∀ g ∈ given', Names tokens' g.flag := by
  induction h generalizing tokens' with
  | nil =>
    cases hseen
    exact ⟨[], .nil, by simp⟩
  | @other x tokens given hx _ ih =>
    obtain ⟨-, hspellings⟩ := List.forall_mem_cons.1 hspellings
    cases hseen with
    | @cons _ y _ tokens' hy hseen =>
      obtain ⟨given', h', hnames⟩ := ih hspellings hseen
      refine ⟨given', .other (fun s hs => ?_) h', fun g hg => (hnames g hg).cons y⟩
      have hknown := hy.2
      rw [hs] at hknown
      exact hx s (seen_known_iff.1 hknown).1
  | @option argument s after given rest more h _ ih =>
    obtain ⟨hspelling, hspellings⟩ := List.forall_mem_cons.1 hspellings
    have hrest : ∀ x ∈ rest, ∀ s, x.2 = .known s → (s.spelling, s.flag) ∈ spellingsOf all := by
      rcases rest_of_optionAt h with rfl | ⟨text, rfl⟩
      · exact hspellings
      · exact (List.forall_mem_cons.1 hspellings).2
    cases hseen with
    | @cons _ y _ after' hy hseen =>
      obtain ⟨argument', token⟩ := y
      obtain ⟨rfl, hy⟩ := hy
      by_cases hs : s.flag ∈ Flag.configurable
      · obtain rfl := Seen.eq_of_configurable hy hs
        obtain ⟨rest', h', hflag, hseen'⟩ := optionAt_configurable hs (hspelling s rfl) h hseen
        obtain ⟨given', hmore, hnames⟩ := ih hrest hseen'
        refine ⟨_, .option h' hmore, fun g hg => (names_of_optionAt h' _ _).2 ?_⟩
        rcases List.mem_append.1 hg with hg | hg
        · exact Or.inl (hflag g hg).symm
        · exact Or.inr (hnames g hg)
      · have hother : ∀ s', token ≠ .known s' := by
          rintro s' rfl
          obtain ⟨heq, hs'⟩ := seen_known_iff.1 hy
          obtain rfl := Token.known.inj heq
          exact hs hs'
        rcases rest_of_optionAt h with rfl | ⟨text, rfl⟩
        · obtain ⟨given', hmore, hnames⟩ := ih hrest hseen
          exact ⟨given', .other hother hmore, fun g hg => (hnames g hg).cons _⟩
        · cases hseen with
          | @cons _ z _ rest' hz hseen =>
            obtain ⟨text', token'⟩ := z
            obtain ⟨rfl, hz⟩ := hz
            cases hz
            obtain ⟨given', hmore, hnames⟩ := ih hrest hseen
            exact ⟨given', .other hother (.other (by simp) hmore),
              fun g hg => ((hnames g hg).cons _).cons _⟩

theorem names_configurable {tokens tokens' : List (Text × Token)} {f : Flag}
    (h : List.Forall₂ (fun x y => x.1 = y.1 ∧ Seen x.2 y.2) tokens tokens') :
    Names tokens' f ↔ f ∈ configurable ∧ Names tokens f := by
  induction h with
  | nil => simp [Names]
  | @cons x y tokens tokens' hxy _ ih =>
    have hhead : (∃ s, y.2 = .known s ∧ s.flag = f) ↔
        f ∈ configurable ∧ ∃ s, x.2 = .known s ∧ s.flag = f := by
      constructor
      · rintro ⟨s, hs, rfl⟩
        have hseen := hxy.2
        rw [hs] at hseen
        obtain ⟨hx, hflag⟩ := seen_known_iff.1 hseen
        exact ⟨hflag, s, hx, rfl⟩
      · rintro ⟨hflag, s, hs, rfl⟩
        have hseen := hxy.2
        rw [hs] at hseen
        exact ⟨s, hseen.eq_of_configurable hflag, rfl⟩
    simp only [Names, List.exists_mem_cons_iff] at ih ⊢
    rw [hhead, ih, and_or_left]

theorem reads_of_read {flags : List Flag} {arguments : List Text} {tokens : List (Text × Token)}
    {a : Arguments} (htokens : tokensOf flags arguments = .ok tokens)
    (hread : read flags arguments = .ok a) :
    Reads flags tokens a.given ∧ (a.leftOver = [] → ∀ x ∈ tokens, x.2 ≠ .unknown) := by
  have hfrom : readFrom flags (tokens.length + 1) none tokens = .ok a := by
    unfold read at hread
    rw [htokens] at hread
    exact hread
  exact reads_of_readFrom (Nat.lt_succ_self _) hfrom

/-- A reader of the options of a configuration file reads whatever can be read, and the options that
it finds are those that an argument names. -/
theorem exists_read_configurable {arguments : List Text} {tokens : List (Text × Token)}
    {a : Arguments} (htokens : tokensOf all arguments = .ok tokens)
    (hread : read all arguments = .ok a) (hleft : a.leftOver = []) :
    ∃ known, read configurable arguments = .ok known ∧
      ∀ f, (∃ g ∈ known.given, g.flag = f) ↔ f ∈ configurable ∧ Names tokens f := by
  obtain ⟨hreads, hknown⟩ := reads_of_read htokens hread
  obtain ⟨tokens', htokens', hseen⟩ := tokensOf_configurable htokens (hknown hleft)
  obtain ⟨given', hreads', hnames⟩ :=
    hreads.configurable (mem_spellingsOf_of_tokensOf htokens) hseen
  obtain ⟨known, hfrom, rfl⟩ := exists_readFrom hreads' (Nat.lt_succ_self _) none
  refine ⟨known, ?_, fun f => ?_⟩
  · unfold read
    rw [htokens']
    exact hfrom
  · rw [← names_configurable hseen]
    constructor
    · rintro ⟨g, hg, rfl⟩
      exact hnames g hg
    · exact hreads'.given_of_names

/-- Of the options of a configuration file only the root can be given without being named. -/
theorem names_iff_given {arguments : List Text} {tokens : List (Text × Token)} {a : Arguments}
    (htokens : tokensOf all arguments = .ok tokens) (hread : read all arguments = .ok a)
    {f : Flag} (hf : f ∈ configurable) (hroot : f ≠ .root) :
    Names tokens f ↔ ∃ g ∈ a.given, g.flag = f := by
  have hreads := (reads_of_read htokens hread).1
  constructor
  · exact hreads.given_of_names
  · rintro ⟨g, hg, rfl⟩
    rcases hreads.names_of_given hg with hnamed | ⟨c, hshort⟩
    · exact hnamed
    · have hshorts : ∀ x ∈ spellingsOf all, x.2 ∈ configurable → x.2 ≠ .root → x.1.length ≠ 2 := by
        decide
      exact absurd rfl (hshorts _ hshort hf hroot)

end CommandLine
end ResourceFinder
