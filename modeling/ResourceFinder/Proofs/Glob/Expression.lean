import ResourceFinder.Glob.Matcher
import ResourceFinder.Proofs.Regex.Reading

/-
The text of a pattern's expression reads back as a tree of the pattern's items.

Every item is written so that it reads as one part, whatever stands around it: a character that
means something gets a backslash, no item begins with a sign that a star before it would take, and
alternatives are inside parentheses.  So the parts of a pattern are the parts of its items.
-/

namespace ResourceFinder
namespace Regex

/-- Parts added one after the other. -/
def State.addParts (st : State) (parts : List (Node × PartKind)) : State :=
  { st with frame := { st.frame with parts := parts.reverse ++ st.frame.parts } }

theorem State.addParts_addParts (st : State) (ps qs : List (Node × PartKind)) :
    (st.addParts ps).addParts qs = st.addParts (ps ++ qs) := by
  simp [State.addParts]

end Regex

namespace Glob

open Regex

/-- The options of a pattern's expression. -/
def flags : Flags := { dotAll := true }

def notSlash : Regex.Node := .one flags (.set true [.single '/'.toNat])

/-- What an atom reads as. -/
def Atom.part : Atom → Regex.Node × PartKind
  | literal c => (.one flags (.set false [.single c.code]), .ordinary)
  | anyChar => (notSlash, .ordinary)
  | anySegment => (.repeated 0 none .greedy notSlash, .repetition)
  | anything => (.repeated 0 none .greedy (.one flags .any), .repetition)

def Atom.node (a : Atom) : Regex.Node := a.part.1

def atomsNode (as : List Atom) : Regex.Node := .sequenceOf (as.map Atom.node)

/-- What an item reads as. -/
def Item.part : Item → Regex.Node × PartKind
  | atom a => a.part
  | group alternatives => (.eitherOf (alternatives.map atomsNode), .ordinary)

def Item.node (i : Item) : Regex.Node := i.part.1

/-- The tree of a pattern's expression. -/
def node (g : Glob) : Regex.Node := .sequenceOf (g.map Item.node)

theorem problem?_atomsNode (as : List Atom) : (atomsNode as).problem? false [] = none := by
  refine Regex.Node.problem?_sequenceOf fun n hn => ?_
  obtain ⟨a, -, rfl⟩ := List.mem_map.1 hn
  cases a <;> rfl

theorem Item.problem?_node (i : Item) : i.node.problem? false [] = none := by
  cases i with
  | atom a => cases a <;> rfl
  | group alternatives =>
    refine Regex.Node.problem?_eitherOf fun n hn => ?_
    obtain ⟨as, -, rfl⟩ := List.mem_map.1 hn
    exact problem?_atomsNode as

theorem problem?_node (g : Glob) : (node g).problem? false [] = none := by
  refine Regex.Node.problem?_sequenceOf fun n hn => ?_
  obtain ⟨i, -, rfl⟩ := List.mem_map.1 hn
  exact i.problem?_node

/-! ## Signs -/

/-- The signs of an atom's expression. -/
def Atom.tokens : Atom → List Regex.Token
  | literal c => if c.isOneOf specialChars then [.escaped c] else [.plain c]
  | anyChar => ("[^/]" : Text).map .plain
  | anySegment => ("[^/]*" : Text).map .plain
  | anything => (".*" : Text).map .plain

def alternativesTokens : List (List Atom) → List Regex.Token
  | [] => []
  | [as] => as.flatMap Atom.tokens
  | as :: alternatives =>
    as.flatMap Atom.tokens ++ .plain (.char '|') :: alternativesTokens alternatives

def Item.tokens : Item → List Regex.Token
  | atom a => a.tokens
  | group alternatives =>
    ("(?:" : Text).map .plain ++ (alternativesTokens alternatives ++ [.plain (.char ')')])

theorem ofText_atom (a : Atom) (t : Text) :
    Token.ofText (a.regexText ++ t) = a.tokens ++ Token.ofText t := by
  cases a with
  | literal c =>
    simp only [Atom.regexText, escapeChar, Atom.tokens]
    by_cases hc : c.isOneOf specialChars = true
    · simp only [hc, if_true]
      rfl
    · simp only [hc, Bool.false_eq_true, if_false]
      refine Token.ofText_cons (fun h => hc ?_) t
      rw [h]
      decide
  | anyChar => exact Token.ofText_append (by decide) t
  | anySegment => exact Token.ofText_append (by decide) t
  | anything => exact Token.ofText_append (by decide) t

theorem ofText_atoms (as : List Atom) (t : Text) :
    Token.ofText (as.flatMap Atom.regexText ++ t) = as.flatMap Atom.tokens ++ Token.ofText t := by
  induction as with
  | nil => rfl
  | cons a as ih =>
    rw [List.flatMap_cons, List.append_assoc, ofText_atom, ih, List.flatMap_cons, List.append_assoc]

theorem ofText_alternatives (alternatives : List (List Atom)) (t : Text) :
    Token.ofText (Text.join "|" (alternatives.map (·.flatMap Atom.regexText)) ++ t) =
      alternativesTokens alternatives ++ Token.ofText t := by
  induction alternatives with
  | nil => rfl
  | cons as alternatives ih =>
    cases alternatives with
    | nil => exact ofText_atoms as t
    | cons as' alternatives =>
      have hbar (u : Text) :
          Token.ofText (("|" : Text) ++ u) = .plain (.char '|') :: Token.ofText u :=
        Token.ofText_append (by decide) u
      have hjoin (u v : Text) (texts : List Text) : Text.join "|" (u :: v :: texts) =
          u ++ "|" ++ Text.join "|" (v :: texts) := rfl
      rw [List.map_cons] at ih
      rw [List.map_cons, List.map_cons, hjoin, List.append_assoc, List.append_assoc, ofText_atoms,
        hbar, ih]
      simp [alternativesTokens]

theorem ofText_item (i : Item) (t : Text) :
    Token.ofText (i.regexText ++ t) = i.tokens ++ Token.ofText t := by
  cases i with
  | atom a => exact ofText_atom a t
  | group alternatives =>
    have hclose : Token.ofText ((")" : Text) ++ t) = .plain (.char ')') :: Token.ofText t :=
      Token.ofText_append (by decide) t
    simp only [Item.regexText, Item.tokens, List.append_assoc]
    rw [Token.ofText_append (by decide), ofText_alternatives, hclose]
    rfl

theorem ofText_regexText (g : Glob) : Token.ofText (regexText g) = g.flatMap Item.tokens := by
  induction g with
  | nil => rfl
  | cons i g ih =>
    have hcons : regexText (i :: g) = i.regexText ++ regexText g := rfl
    rw [hcons, ofText_item, ih, List.flatMap_cons]

/-! ## Parts -/

theorem apart_atom (a : Atom) (rest : List Regex.Token) : Apart (a.tokens ++ rest) := by
  cases a with
  | literal c =>
    simp only [Atom.tokens]
    by_cases hc : c.isOneOf specialChars = true
    · simp only [hc, if_true]
      exact ⟨nofun, nofun, nofun⟩
    · simp only [hc, Bool.false_eq_true, if_false]
      refine ⟨nofun, ?_, ?_⟩ <;> intro h <;> cases h <;> exact hc (by decide)
  | anyChar => exact ⟨nofun, nofun, nofun⟩
  | anySegment => exact ⟨nofun, nofun, nofun⟩
  | anything => exact ⟨nofun, nofun, nofun⟩

theorem apart_atoms (as : List Atom) {rest : List Regex.Token} (h : Apart rest) :
    Apart (as.flatMap Atom.tokens ++ rest) := by
  cases as with
  | nil => exact h
  | cons a as =>
    rw [List.flatMap_cons, List.append_assoc]
    exact apart_atom a _

theorem apart_items (g : Glob) : Apart (g.flatMap Item.tokens) := by
  cases g with
  | nil => exact apart_nil
  | cons i g =>
    rw [List.flatMap_cons]
    cases i with
    | atom a => exact apart_atom a _
    | group alternatives => exact ⟨nofun, nofun, nofun⟩

section

variable {st : State} {rest : List Regex.Token}

/-- A test and a star after it are one part, the repetition of the test. -/
theorem proceeds_starred {test : Test} (tokens : List Regex.Token)
    (hflags : st.frame.flags = flags)
    (htest : Proceeds st (tokens ++ .plain (.char '*') :: rest) (st.addTest test)
      (.plain (.char '*') :: rest)) (hrest : Apart rest) :
    Proceeds st (tokens ++ .plain (.char '*') :: rest)
      (st.addParts [(.repeated 0 none .greedy (.one flags test), .repetition)]) rest := by
  refine htest.trans ?_
  have hparts : (st.addTest test).frame.parts =
      (.one flags test, .ordinary) :: st.frame.parts := by
    simp [State.addTest, State.add, hflags]
  have hstar := proceeds_star (st.addTest test)
    (by simp [State.addTest, State.add, hflags, flags]) hparts hrest
  simpa [State.addTest, State.add, State.addParts] using hstar

theorem proceeds_atom (hflags : st.frame.flags = flags) (hrest : Apart rest) (a : Atom) :
    Proceeds st (a.tokens ++ rest) (st.addParts [a.part]) rest := by
  have hverbose : st.frame.flags.verbose = false := by rw [hflags]; rfl
  cases a with
  | literal c =>
    have hcode : st.addParts [(Atom.literal c).part] = st.addCode c.code := by
      simp [State.addCode, State.addTest, hflags, State.addParts, State.add, Atom.part]
    rw [hcode]
    by_cases hc : c.isOneOf specialChars = true
    · simp only [Atom.tokens, hc, if_true]
      exact proceeds_escaped hc hrest.1
    · rw [Bool.not_eq_true] at hc
      simp only [Atom.tokens, hc, Bool.false_eq_true, if_false]
      exact proceeds_code hverbose hc hrest.1
  | anyChar =>
    have hset : st.addParts [Atom.anyChar.part] =
        st.addTest (.set true [.single (CodePoint.char '/').code]) := by
      simp [State.addTest, hflags, State.addParts, State.add, Atom.part, notSlash, CodePoint.code]
    rw [hset]
    exact proceeds_allBut hverbose (by decide) hrest.1
  | anySegment =>
    exact proceeds_starred (("[^/]" : Text).map .plain) hflags
      (proceeds_allBut hverbose (by decide) (by simp)) hrest
  | anything =>
    exact proceeds_starred (("." : Text).map .plain) hflags
      (proceeds_dot hverbose (by simp)) hrest

theorem proceeds_atoms (as : List Atom) (hflags : st.frame.flags = flags) (hrest : Apart rest) :
    Proceeds st (as.flatMap Atom.tokens ++ rest) (st.addParts (as.map Atom.part)) rest := by
  induction as generalizing st with
  | nil => exact .refl st rest
  | cons a as ih =>
    rw [List.flatMap_cons, List.append_assoc]
    refine (proceeds_atom hflags (apart_atoms as hrest) a).trans ?_
    have hadd : st.addParts ((a :: as).map Atom.part) =
        (st.addParts [a.part]).addParts (as.map Atom.part) := by
      rw [State.addParts_addParts, List.map_cons, List.singleton_append]
    rw [hadd]
    exact ih hflags

theorem apart_alternatives (alternatives : List (List Atom)) :
    Apart (alternativesTokens alternatives ++ .plain (.char ')') :: rest) := by
  cases alternatives with
  | nil => exact ⟨by simp [alternativesTokens], by simp [alternativesTokens],
      by simp [alternativesTokens]⟩
  | cons as alternatives =>
    cases alternatives with
    | nil => exact apart_atoms as ⟨by simp, by simp, by simp⟩
    | cons as' alternatives =>
      rw [alternativesTokens, List.append_assoc]
      · exact apart_atoms as ⟨by simp, by simp, by simp⟩
      · simp

/-- An alternative is the parts since the last bar. -/
theorem sequenceOf_parts (as : List Atom) :
    Regex.Node.sequenceOf (((as.map Atom.part).reverse ++ []).reverse.map Prod.fst) = atomsNode as := by
  rw [List.append_nil, List.reverse_reverse, List.map_map]
  rfl

/-- The alternatives of a group that is open and the parenthesis after them. -/
theorem proceeds_alternatives (st : State) (start : Nat) (frame : Frame) (outer : List Frame)
    (alternatives : List (List Atom)) (hne : alternatives ≠ []) (finished : List Regex.Node)
    (hrest : Apart rest) :
    Proceeds { st with frame := ⟨.plain, start, flags, finished, []⟩, outer := frame :: outer }
      (alternativesTokens alternatives ++ .plain (.char ')') :: rest)
      (State.add { st with frame, outer }
        (.eitherOf (finished.reverse ++ alternatives.map atomsNode))) rest := by
  induction alternatives generalizing finished with
  | nil => contradiction
  | cons as alternatives ih =>
    cases alternatives with
    | nil =>
      refine (proceeds_atoms as rfl ⟨by simp, by simp, by simp⟩).trans ?_
      have hclose := proceeds_close
        (State.addParts
          { st with frame := ⟨.plain, start, flags, finished, []⟩, outer := frame :: outer }
          (as.map Atom.part)) rfl rfl hrest.1
      simp only [State.addParts, Frame.alternatives, List.reverse_cons] at hclose
      rw [sequenceOf_parts] at hclose
      exact hclose
    | cons as' alternatives =>
      have htokens : alternativesTokens (as :: as' :: alternatives) ++ .plain (.char ')') :: rest =
          as.flatMap Atom.tokens ++ .plain (.char '|') ::
            (alternativesTokens (as' :: alternatives) ++ .plain (.char ')') :: rest) := by
        simp [alternativesTokens]
      have hrec := ih (by simp) (atomsNode as :: finished)
      rw [List.reverse_cons, List.append_assoc, List.singleton_append, ← List.map_cons] at hrec
      rw [htokens]
      refine (proceeds_atoms as rfl ⟨by simp, by simp, by simp⟩).trans ?_
      refine (proceeds_bar rfl (apart_alternatives (as' :: alternatives)).1).trans ?_
      simp only [State.addParts]
      rw [sequenceOf_parts]
      exact hrec

/-- The groups of an item hold an alternative. -/
def Item.IsProper : Item → Prop
  | atom _ => True
  | group alternatives => alternatives ≠ []

theorem proceeds_item (i : Item) (hproper : i.IsProper) (hflags : st.frame.flags = flags)
    (hrest : Apart rest) :
    Proceeds st (i.tokens ++ rest) (st.addParts [i.part]) rest := by
  cases i with
  | atom a => exact proceeds_atom hflags hrest a
  | group alternatives =>
    intro p fuel hfuel
    cases fuel with
    | zero => simp at hfuel
    | succ fuel =>
      have htokens : (Item.group alternatives).tokens ++ rest =
          .plain (.char '(') :: .plain (.char '?') :: .plain (.char ':') ::
            (alternativesTokens alternatives ++ .plain (.char ')') :: rest) := by
        rw [Item.tokens, List.append_assoc, List.append_assoc]
        rfl
      rw [htokens] at hfuel ⊢
      rw [parseFrom_open (by rw [hflags]; rfl) (apart_alternatives alternatives).1, hflags]
      have hclosed := proceeds_alternatives st p st.frame st.outer alternatives hproper [] hrest
      exact hclosed (p + 3) fuel (by simp only [List.length_cons] at hfuel; omega)

theorem proceeds_items (st : State) (g : Glob) (hproper : ∀ i ∈ g, i.IsProper)
    (hflags : st.frame.flags = flags) :
    Proceeds st (g.flatMap Item.tokens) (st.addParts (g.map Item.part)) [] := by
  induction g generalizing st with
  | nil => exact .refl st []
  | cons i g ih =>
    rw [List.flatMap_cons]
    refine (proceeds_item i (hproper i List.mem_cons_self) hflags (apart_items g)).trans ?_
    have hadd : st.addParts ((i :: g).map Item.part) =
        (st.addParts [i.part]).addParts (g.map Item.part) := by
      rw [State.addParts_addParts, List.map_cons, List.singleton_append]
    rw [hadd]
    exact ih _ (fun j hj => hproper j (List.mem_cons_of_mem i hj)) hflags

end

/-- The expression of a pattern is well-formed, and its tree is the pattern's. -/
theorem parse_regexText {g : Glob} (hproper : ∀ i ∈ g, i.IsProper) :
    Regex.parse flags (regexText g) = .ok (node g) := by
  have hcheck : (Source.ofText (regexText g)).check = .ok ⟨0, g.flatMap Item.tokens⟩ := by
    rw [Source.ofText, ofText_regexText]
    exact Source.check_of_head (apart_items g).1
  obtain ⟨p, fuel, hfuel, hparse⟩ :=
    proceeds_items (.start flags) g hproper rfl 0 _ (Nat.lt_succ_self _)
  have hnode : Regex.Node.eitherOf ((State.start flags).addParts (g.map Item.part)).frame.alternatives =
      node g := by
    simp only [Frame.alternatives, State.addParts, State.start, List.append_nil,
      List.reverse_reverse, List.map_map, List.reverse_singleton]
    rfl
  cases fuel with
  | zero => omega
  | succ fuel =>
    have hfinish : finish ((State.start flags).addParts (g.map Item.part)) = .ok (node g) := by
      rw [← hnode]
      exact finish_eq_ok rfl rfl rfl (hnode ▸ problem?_node g)
    unfold Regex.parse
    rw [hcheck]
    exact hparse.trans hfinish

end Glob
end ResourceFinder
