import Stencil.Proofs.Grammar.Statement

/-!
Contract: a printed template reads back.

Owns:
- the text of a template;
- parsing that text gives the template again, and nothing is wrong with it.

Does not own: scanning (`Stencil.Proofs.Grammar.Layout`) and single statements
(`Stencil.Proofs.Grammar.Statement`).
-/

set_option autoImplicit false

namespace Stencil.Grammar

open Stencil.Syntax
open Stencil.Text (Position)
open Stencil.Token (Kind)
open Read Statement

def printed (body : List Node) : String := String.ofList (layout (bodyFragments body))

/-! ### The tape of a printed template -/

theorem tidy_of_isInner {kind : Kind} (inner : kind.isInner = true) : Tidy kind := by
  cases kind <;> first | exact ⟨rfl, rfl⟩ | cases inner

theorem tidy_of_fragment {fragment : Fragment} (sound : fragment.Sound) {word : Word}
    (member : word ∈ fragment.words) :
    Tidy word.kind := by
  cases fragment with
  | text content =>
      rw [List.mem_singleton.mp member]
      exact ⟨rfl, rfl⟩
  | comment content =>
      rw [List.mem_singleton.mp member]
      exact ⟨rfl, rfl⟩
  | tag delimiter words =>
      rcases List.mem_cons.mp member with rfl | memberRest
      · cases delimiter <;> exact ⟨rfl, rfl⟩
      · rcases List.mem_append.mp memberRest with memberWords | isEnd
        · exact tidy_of_isInner (sound.1 word memberWords).isInner
        · rw [List.mem_singleton.mp isEnd]
          cases delimiter <;> exact ⟨rfl, rfl⟩

theorem tidy_of_laid {fragments : List Fragment} (laid : Laid fragments) {word : Word}
    (member : word ∈ fragments.flatMap Fragment.words) : Tidy word.kind := by
  induction fragments with
  | nil => cases member
  | cons fragment rest inductionHypothesis =>
      rw [List.flatMap_cons] at member
      rcases List.mem_append.mp member with memberFragment | memberRest
      · exact tidy_of_fragment laid.1 memberFragment
      · exact inductionHypothesis laid.2.2 memberRest

theorem Tape.quiet_of_tokens {first : Token} {rest : List Token}
    (tidy : ∀ token ∈ first :: rest, Tidy token.kind) :
    Tape.Quiet ⟨none, first, rest, [], #[]⟩ where
  waiting _ member := nomatch member
  before _ isPrevious := nomatch isPrevious
  head := tidy first List.mem_cons_self
  behind token member := tidy token (List.mem_cons_of_mem _ member)

/-- A template is read from a tape that shows the words of its statements up to the last token. -/
theorem run_template_of_words {register : Register} (keeps : register.allowOverride = false)
    {body : List Node} (plain : ∀ node ∈ body, node.IsPlain) {tape : Tape} (quiet : tape.Quiet)
    (shown : tape.Shows (bodyWords body))
    (atEnd : (tape.past (bodyWords body)).current.kind = .endOfInput) :
    ((template register).run tape).1.body.map Node.unplaced = body.map Node.unplaced ∧
      ((template register).run tape).2.problems = tape.problems := by
  have nested (node : Node) (member : node ∈ body) :
      GivesNode register (nestedBody register tape.following.length) node := by
    have passed := shown.length_following
    have bound := length_nodeWords_le member
    exact readsNode_of_isPlain keeps (plain node member) _ (by omega)
  have atEndInside : ((tape.past (bodyWords body)).inside []).current.kind = .endOfInput := atEnd
  obtain ⟨values, same, settles⟩ := settles_nodes
    (fun node member => laysOut_of_isPlain (plain node member)) nested (List.nil_subset _)
    (quiet.inside (List.nil_subset _)) ((Tape.shows_inside _ _ _).mpr shown)
    (fun nodes => by rw [Tape.past_inside]; exact run_nextNode_of_end atEndInside ⟨nodes, none⟩) #[]
  have run := run_loop_of_settles settles
  rw [Tape.past_inside] at run
  simp only [Tape.inside, Array.empty_append] at run
  rw [run_template, run_body, run_bodyAround]
  simp only [run, same, Tape.problems_past, and_self]

/-- Tokens that are the words of printed statements form the template of these statements. -/
theorem parseTokens_of_words {register : Register} (keeps : register.allowOverride = false)
    {body : List Node} (plain : ∀ node ∈ body, node.IsPlain) (apart : TextsApart body)
    {tokens : List Token}
    (words : (kept tokens).map wordOf = bodyWords body ++ [⟨.endOfInput, ""⟩]) :
    (parseTokens register tokens).template.body.map Node.unplaced = body.map Node.unplaced ∧
      (parseTokens register tokens).problems = [] := by
  have laid := laid_bodyFragments (fun node member => laysOut_of_isPlain (plain node member)) apart
  obtain ⟨init, ending, isKept, isBody, isEnding⟩ := List.map_eq_append_iff.mp words
  obtain ⟨last, rfl, isLast⟩ := List.map_eq_singleton_iff.mp isEnding
  have isEnd : last.kind = .endOfInput := congrArg Word.kind isLast
  obtain ⟨first, rest, areTokens, isTape⟩ := ofTokens_of_kept isKept isEnd
  have tidy (token : Token) (member : token ∈ first :: rest) : Tidy token.kind := by
    rw [← areTokens] at member
    rcases List.mem_append.mp member with memberInit | isLast
    · have isWord : wordOf token ∈ bodyWords body := isBody ▸ List.mem_map_of_mem memberInit
      exact tidy_of_laid laid isWord
    · rw [List.mem_singleton.mp isLast, isEnd]
      exact ⟨rfl, rfl⟩
  have holds : (Tape.mk none first rest [] #[]).current ::
      (Tape.mk none first rest [] #[]).following = init ++ [last] := areTokens.symm
  obtain ⟨shown, atLast, _⟩ := Tape.shows_of_tokens holds
  rw [isBody] at shown atLast
  obtain ⟨same, quiet⟩ := run_template_of_words keeps plain (Tape.quiet_of_tokens tidy) shown
    (by rw [atLast, isEnd])
  rw [parseTokens, isTape]
  exact ⟨same, congrArg Array.toList quiet⟩

/-! ### Round trip -/

/-- Parsing the text of a template gives the template again, whatever its statements are and however
deep they are nested: the same tree up to places, with nothing reported. Tags of a host that do not
override those of the language change nothing about this. -/
theorem parse_printed {register : Register} (keeps : register.allowOverride = false)
    (name : String) {body : List Node} (plain : ∀ node ∈ body, node.IsPlain)
    (apart : TextsApart body) :
    (parse register name (printed body)).template.name = some name ∧
      (parse register name (printed body)).template.body.map Node.unplaced =
        body.map Node.unplaced ∧
      (parse register name (printed body)).problems = [] := by
  have laid := laid_bodyFragments (fun node member => laysOut_of_isPlain (plain node member)) apart
  have isRest : (Token.Cursor.ofText (printed body)).rest = layout (bodyFragments body) := by
    rw [Token.Cursor.ofText, printed, String.toList_ofList]
  obtain ⟨words, quiet⟩ := scanFrom_layout laid isRest
  obtain ⟨same, noProblems⟩ := parseTokens_of_words keeps plain apart words
  refine ⟨rfl, same, ?_⟩
  show (Token.scan (printed body)).problems ++ _ = _
  rw [Token.scan, quiet]
  exact noProblems

/-- A loop over pairs with a choice in it, and a comment behind it. -/
def pairsTemplate : List Node :=
  [.each (.tuple [.name "key" default, .name "value" default] default) (.name "pairs" default)
    (some (.name "key" default))
    [.text "- " default,
      .choose [.mk (.name "value" default) [.output (.name "value" default) default] default]
        (some [.text "none" default]) default]
    none default,
  .comment "done" default]

theorem isPlain_pairsTemplate : ∀ node ∈ pairsTemplate, node.IsPlain := by
  have key : IsIdentifier "key" := ⟨by decide, by decide⟩
  have value : IsIdentifier "value" := ⟨by decide, by decide⟩
  have pairs : IsIdentifier "pairs" := ⟨by decide, by decide⟩
  have target : (Target.tuple [.name "key" default, .name "value" default] default).IsPlain := by
    refine .tuple _ fun item member => ?_
    simp only [List.mem_cons, List.not_mem_nil, or_false] at member
    rcases member with rfl | rfl
    · exact .name _ key
    · exact .name _ value
  have text (content : String) (nonempty : content ≠ "") (noBrace : '{' ∉ content.toList) :
      ∀ node ∈ [Node.text content default], node.IsPlain := by
    intro node member
    rw [List.mem_singleton.mp member]
    exact .text _ nonempty noBrace
  have choice : (Node.choose [.mk (.name "value" default) [.output (.name "value" default) default]
      default] (some [.text "none" default]) default).IsPlain := by
    refine .choose _ (List.cons_ne_nil _ _) ?_ ?_ ?_ ?_ ?_
    · intro branch member
      rw [List.mem_singleton.mp member]
      exact .name _ value
    · intro branch member
      rw [List.mem_singleton.mp member]
      exact ⟨nofun, trivial⟩
    · intro branch member node memberNode
      rw [List.mem_singleton.mp member] at memberNode
      rw [List.mem_singleton.mp memberNode]
      exact .output _ (.name _ value)
    · intro body isBody
      rw [← Option.some.inj isBody]
      exact ⟨nofun, trivial⟩
    · intro body isBody
      rw [← Option.some.inj isBody]
      exact text "none" (by decide) (by decide)
  intro node member
  simp only [pairsTemplate, List.mem_cons, List.not_mem_nil, or_false] at member
  rcases member with rfl | rfl
  · refine .each _ target (.name _ pairs) ?_ ?_ ?_ nofun nofun
    · intro condition isCondition
      rw [← Option.some.inj isCondition]
      exact .name _ key
    · refine ⟨fun _ next isNext => ?_, nofun, trivial⟩
      rw [← Option.some.inj isNext]
      rfl
    · intro node member
      rcases List.mem_cons.mp member with rfl | memberRest
      · exact text "- " (by decide) (by decide) _ List.mem_cons_self
      · rw [List.mem_singleton.mp memberRest]
        exact choice
  · exact .comment _ (by cbv) (by decide)

/-- The text of the loop, and what parsing it gives. -/
theorem parse_printed_pairs :
    printed pairsTemplate =
        "\x7b% for ( key , value ) in pairs if key %\x7d- \x7b% if value %\x7d" ++
          "\x7b\x7b value \x7d\x7d\x7b% else %\x7dnone\x7b% endif %\x7d\x7b% endfor %\x7d" ++
          "\x7b# done #\x7d" ∧
      (parse .empty "page" (printed pairsTemplate)).template.body.map Node.unplaced =
        pairsTemplate ∧
      (parse .empty "page" (printed pairsTemplate)).problems = [] := by
  have apart : TextsApart pairsTemplate := ⟨nofun, nofun, trivial⟩
  have keeps : Register.empty.allowOverride = false := rfl
  obtain ⟨_, same, quiet⟩ := parse_printed keeps "page" isPlain_pairsTemplate apart
  exact ⟨by cbv, same, quiet⟩

end Stencil.Grammar
