import SqlFragments.Proofs.Except
import SqlFragments.Proofs.Resolution.Following
import SqlFragments.Proofs.Resolution.Running

/-! # Values do not steer the expansion

What a run does depends on which variables have values and on the values from which references are
read, and on no other value. Two runs from contexts that differ only in other values come to the same
nodes in the same order, look up the same names and end alike; their texts differ only where a value
has been put in, as it is.

* `Steers`: the variables from which references are read;
* `Context.Alike`: contexts that differ only in other values;
* `Run.alike`: two runs from contexts that are alike end alike;
* `Visit.pieces`: what a visited text shows, piece by piece;
* `Run.text_eq`: the text of a run is what its visits show;
* `resolveStatement_alike`: hence values cannot steer the resolution of a statement. -/

namespace SqlFragments

open SqlFragments.Placeholder
open Lexical (Environment)

/-! ## Contexts that are alike -/

/-- A reference in the library is read from the variable. -/
def Steers (library : Dict Node) (name : String) : Prop :=
  ∃ body ∈ library.values, ∃ inc ∈ body.includes, inc.reference = some (.variable name)

instance (library : Dict Node) (name : String) : Decidable (Steers library name) :=
  inferInstanceAs (Decidable (∃ body ∈ library.values, ∃ inc ∈ body.includes,
    inc.reference = some (.variable name)))

/-- Environments in which the same variables have values, and some of the variables the same. -/
structure Lexical.Environment.Alike (steers : String → Prop) (env env' : Environment) : Prop where
  bound : ∀ name, (env' name).isSome = (env name).isSome
  same : ∀ name, steers name → env' name = env name

/-- Contexts with the same setting in which the same variables have values, and those that steer the
same. Which frames are open and what they hold plays no part. -/
structure Context.Alike (steers : String → Prop) (ctx ctx' : Context) : Prop
    extends ctx.SameSetting ctx' where
  values : Environment.Alike steers ctx.get? ctx'.get?

/-- Both answers are texts, or both are the same error. -/
def AnswersAlike (answer answer' : Except NodeError String) : Prop :=
  (∃ text text', answer = .ok text ∧ answer' = .ok text') ∨
    ∃ e, answer = .error e ∧ answer' = .error e

namespace AnswersAlike

variable {answer answer' : Except NodeError String}

/-- The same error twice. -/
theorem error (e : NodeError) : AnswersAlike (.error e) (.error e) := .inr ⟨e, rfl, rfl⟩

/-- Two texts, whatever they are. -/
theorem ok (text text' : String) : AnswersAlike (.ok text) (.ok text') :=
  .inl ⟨text, text', rfl, rfl⟩

/-- Either both succeed or neither does. -/
theorem isOk_eq (h : AnswersAlike answer answer') : answer.isOk = answer'.isOk := by
  rcases h with ⟨text, text', rfl, rfl⟩ | ⟨e, rfl, rfl⟩
  · rfl
  · rfl

/-- Changing the texts leaves answers alike. -/
theorem map (h : AnswersAlike answer answer') (f f' : String → String) :
    AnswersAlike (answer.map f) (answer'.map f') := by
  rcases h with ⟨text, text', rfl, rfl⟩ | ⟨e, rfl, rfl⟩
  · exact ok _ _
  · exact error e

end AnswersAlike

/-- Properties are bound to the same effect. -/
theorem Lexical.Environment.Alike.overlay {steers : String → Prop} {env env' : Environment}
    (h : env.Alike steers env') (properties : List Property) :
    (env.overlay properties).Alike steers (env'.overlay properties) where
  bound name := by
    rw [Environment.overlay, Environment.overlay]
    cases properties.reverse.find? (·.name = name) with
    | none => exact h.bound name
    | some p => rfl
  same name hname := by
    rw [Environment.overlay, Environment.overlay]
    cases properties.reverse.find? (·.name = name) with
    | none => exact h.same name hname
    | some p => rfl

/-- Giving another value to a variable that has one makes no difference unless it steers. -/
theorem Context.alike_set {steers : String → Prop} {ctx : Context} {name : String}
    (hbound : (ctx.get? name).isSome) (hsteers : ¬ steers name) (value : String) :
    ctx.Alike steers (ctx.set name value) where
  toSameSetting := ⟨rfl, rfl, rfl, rfl⟩
  values.bound other := by
    show ((ctx.bindings.set name value).get? other).isSome = (ctx.get? other).isSome
    rw [Bindings.get?_set]
    split
    · rename_i heq
      rw [← heq, hbound, Option.isSome_some]
    · rfl
  values.same other hother := by
    have hne : name ≠ other := fun heq => hsteers (heq ▸ hother)
    show (ctx.bindings.set name value).get? other = ctx.get? other
    rw [Bindings.get?_set, if_neg hne]
    rfl

/-! ## What is read from contexts that are alike -/

/-- The reference of an include is read from none but these variables. -/
def Include.SteeredBy (steers : String → Prop) (inc : Include) : Prop :=
  ∀ name, inc.reference = some (.variable name) → steers name

/-- What steers a library are the variables from which its references are read. -/
theorem steeredBy_steers {library : Dict Node} :
    ∀ body ∈ library.values, ∀ inc ∈ body.includes, inc.SteeredBy (Steers library) :=
  fun body hbody inc hinc _ hname => ⟨body, hbody, inc, hinc, hname⟩

namespace Context.Alike

variable {steers : String → Prop} {ctx ctx' last last' : Context}

/-- Inside a fragment contexts stay alike. -/
theorem enter (h : ctx.Alike steers ctx') (name : String) :
    (ctx.enter name).Alike steers (ctx'.enter name) :=
  ⟨h.toSameSetting.enter name, h.values⟩

/-- So do they behind it. -/
theorem leave (h : ctx.Alike steers ctx') : ctx.leave.Alike steers ctx'.leave :=
  ⟨⟨h.space, h.registry, h.options, congrArg List.tail h.active⟩, h.values⟩

/-- Inside an include contexts stay alike, its properties being bound in both. -/
theorem inside (h : ctx.Alike steers ctx') (inc : Include) :
    (inc.inside ctx).Alike steers (inc.inside ctx') where
  toSameSetting := ((inc.sameSetting_inside ctx).symm.trans h.toSameSetting).trans
    (inc.sameSetting_inside ctx')
  values := by
    rw [inc.get?_inside, inc.get?_inside]
    exact h.values.overlay _

/-- What is alike at the end of an include is alike behind it: either all values stay, or those
before it are put back. -/
theorem behind {inc : Include} (h : ctx.Alike steers ctx') (hlast : last.Alike steers last')
    (hkeeps : (inc.inside ctx).Keeps last) (hkeeps' : (inc.inside ctx').Keeps last') :
    (ctx.behind last).Alike steers (ctx'.behind last') where
  toSameSetting := (hkeeps.behind.toSameSetting.symm.trans h.toSameSetting).trans
    hkeeps'.behind.toSameSetting
  values := by
    cases hscoped : ctx.options.scopedBindings with
    | false =>
      rw [behind_of_not_scoped hscoped, behind_of_not_scoped (h.options ▸ hscoped)]
      exact hlast.values
    | true =>
      have hvalues : (ctx.behind last).get? = ctx.get? :=
        congrArg Dict.get? (values_behind_of_scoped hscoped hkeeps)
      have hvalues' : (ctx'.behind last').get? = ctx'.get? :=
        congrArg Dict.get? (values_behind_of_scoped (h.options ▸ hscoped) hkeeps')
      rw [hvalues, hvalues']
      exact h.values

/-- An include points at the same name, or its reference cannot be read for the same reason. -/
theorem target_eq (h : ctx.Alike steers ctx') {inc : Include}
    (hsteered : inc.SteeredBy steers) :
    inc.target ctx'.bindings.values = inc.target ctx.bindings.values := by
  rw [Lexical.target_eq, Lexical.target_eq, Lexical.target, Lexical.target]
  split
  · rfl
  · rfl
  · rename_i name hname
    have hsame : ctx'.bindings.values.get? name = ctx.bindings.values.get? name :=
      h.values.same name (hsteered name hname)
    rw [hsame]

/-- The same variables of a text have values, so the first one without a value is the same. -/
theorem renderTokens (h : ctx.Alike steers ctx') (ts : List Token) :
    AnswersAlike (renderTokens ctx.bindings.values ts)
      (SqlFragments.renderTokens ctx'.bindings.values ts) := by
  induction ts with
  | nil => exact .ok _ _
  | cons token ts ih =>
    cases token with
    | literal text => exact ih.map _ _
    | parameter expr => exact ih.map _ _
    | endOfText => exact ih
    | «variable» name =>
      have hbound : (ctx'.bindings.values.get? name).isSome
          = (ctx.bindings.values.get? name).isSome := h.values.bound name
      rw [SqlFragments.renderTokens, SqlFragments.renderTokens]
      -- without a value both end there, with the same error
      cases hvalue : ctx.bindings.values.get? name with
      | none =>
        rw [hvalue, Option.isSome_none, Option.isSome_eq_false_iff, Option.isNone_iff_eq_none]
          at hbound
        rw [hbound]
        exact .error _
      | some value =>
        rw [hvalue, Option.isSome_some] at hbound
        obtain ⟨value', hvalue'⟩ := Option.isSome_iff_exists.1 hbound
        rw [hvalue']
        exact ih.map _ _

end Context.Alike

/-! ## Two runs -/

/-- Two runs end alike: their answers are alike, so are the contexts that they leave, they visit the
same nodes and look up the same names. -/
structure Run.EndAlike (steers : String → Prop) (visits visits' : List Visit)
    (answer answer' : Except NodeError String) (after after' : Context) : Prop where
  answers : AnswersAlike answer answer'
  after : after.Alike steers after'
  nodes : visits'.map Prod.fst = visits.map Prod.fst
  lookUps : namesLookedUp visits' = namesLookedUp visits

namespace Run.EndAlike

variable {steers : String → Prop} {ctx ctx' after after' : Context} {visits visits' : List Visit}
  {answer answer' : Except NodeError String}

/-- Runs that end at once with the same error. -/
theorem of_error (h : ctx.Alike steers ctx') (e : NodeError) :
    EndAlike steers [] [] (.error e) (.error e) ctx ctx' :=
  ⟨.error e, h, rfl, rfl⟩

/-- Leaving a fragment changes nothing of this. -/
theorem leave (h : EndAlike steers visits visits' answer answer' after after') :
    EndAlike steers visits visits' answer answer' after.leave after'.leave :=
  ⟨h.answers, h.after.leave, h.nodes, h.lookUps⟩

/-- Includes whose references cannot be read. -/
theorem of_target {inc : Include} {e : NodeError} (h : ctx.Alike steers ctx')
    (htarget : inc.target (inc.inside ctx).bindings.values = .error e)
    (htarget' : inc.target (inc.inside ctx').bindings.values = .error e) :
    EndAlike steers [(.include inc, ctx)] [(.include inc, ctx')] (.error e) (.error e)
      (ctx.behind (inc.inside ctx)) (ctx'.behind (inc.inside ctx')) where
  answers := .error e
  after := h.behind (h.inside inc) (.refl _) (.refl _)
  nodes := rfl
  lookUps := by
    rw [namesLookedUp_of_target_eq_error htarget, namesLookedUp_of_target_eq_error htarget']

/-- Includes that point at the same name. -/
theorem included {inc : Include} {name : String} (h : ctx.Alike steers ctx')
    (htarget : inc.target (inc.inside ctx).bindings.values = .ok name)
    (htarget' : inc.target (inc.inside ctx').bindings.values = .ok name)
    (hkeeps : (inc.inside ctx).Keeps after) (hkeeps' : (inc.inside ctx').Keeps after')
    (hend : EndAlike steers visits visits' answer answer' after after') :
    EndAlike steers ((.include inc, ctx) :: visits) ((.include inc, ctx') :: visits') answer answer'
      (ctx.behind after) (ctx'.behind after') where
  answers := hend.answers
  after := h.behind hend.after hkeeps hkeeps'
  nodes := congrArg (List.cons (Node.include inc)) hend.nodes
  lookUps := by
    rw [namesLookedUp_cons_of_target htarget, namesLookedUp_cons_of_target htarget', hend.lookUps]

/-- Fragments whose children end alike. -/
theorem fragment (h : EndAlike steers visits visits' answer answer' after after')
    (tag id : String) (children : List Node) :
    EndAlike steers ((.fragment tag id children, ctx) :: visits)
      ((.fragment tag id children, ctx') :: visits') answer answer' after after' :=
  ⟨h.answers, h.after, congrArg (List.cons (Node.fragment tag id children)) h.nodes, h.lookUps⟩

/-- Runs with others behind them. -/
theorem append {first first' : String} {mid mid' : Context} {more more' : List Visit}
    (h : EndAlike steers visits visits' (.ok first) (.ok first') mid mid')
    (hmore : EndAlike steers more more' answer answer' after after') :
    EndAlike steers (visits ++ more) (visits' ++ more') (answer.map (first ++ ·))
      (answer'.map (first' ++ ·)) after after' where
  answers := hmore.answers.map _ _
  after := hmore.after
  nodes := by rw [List.map_append, List.map_append, h.nodes, hmore.nodes]
  lookUps := by rw [namesLookedUp_append, namesLookedUp_append, h.lookUps, hmore.lookUps]

end Run.EndAlike

/-- **Values do not steer a run.** Two runs of the same subject from contexts that are alike end
alike. -/
theorem Run.alike {library : Dict Node} {subject : Subject} {ctx ctx' after after' : Context}
    {visits visits' : List Visit} {answer answer' : Except NodeError String}
    (h : Run subject ctx visits answer after) (hold : ctx.Holds library)
    (halike : ctx.Alike (Steers library) ctx')
    (hsubject : ∀ inc ∈ subject.includes, inc.SteeredBy (Steers library))
    (h' : Run subject ctx' visits' answer' after') :
    EndAlike (Steers library) visits visits' answer answer' after after' := by
  -- on the first run; the second one cannot take another rule
  induction h generalizing ctx' visits' answer' after' with
  | @missing name ctx hreg =>
    obtain ⟨rfl, rfl, rfl⟩ := h'.of_missing (halike.registry ▸ hreg)
    exact .of_error halike _
  | @cyclic name ctx body hreg hdetect hactive =>
    obtain ⟨rfl, rfl, rfl⟩ := h'.of_cyclic (halike.registry ▸ hreg) (halike.options ▸ hdetect)
      (halike.active ▸ hactive)
    -- the same names are being resolved in both contexts, so the chain is the same too
    rw [halike.active]
    exact .of_error halike _
  | @entered name ctx body visits answer last hreg hnew _ ih =>
    -- the variables of the body's references are among those that steer
    obtain ⟨node, hbody, heq⟩ := hold.exists_body hreg
    cases heq
    have hsteered := steeredBy_steers body (Dict.mem_values_of_get? hbody)
    have hnew' : ctx'.options.detectCycles = true → name ∉ ctx'.active := by
      rw [halike.options, halike.active]
      exact hnew
    obtain ⟨last', hrun', rfl⟩ := h'.of_entered (halike.registry ▸ hreg) hnew'
    exact (ih hold (halike.enter name) hsteered hrun').leave
  | @text ts ctx =>
    cases h'
    exact ⟨halike.renderTokens ts, halike, rfl, rfl⟩
  | property =>
    cases h'
    exact ⟨.ok _ _, halike, rfl, rfl⟩
  | @aimless inc ctx e htarget =>
    have hsame := (halike.inside inc).target_eq (hsubject inc (List.mem_singleton_self _))
    have htarget' := hsame.trans htarget
    obtain ⟨rfl, rfl, rfl⟩ := h'.of_aimless htarget'
    exact .of_target halike htarget htarget'
  | @included inc ctx name visits answer last htarget hrun ih =>
    have hsame := (halike.inside inc).target_eq (hsubject inc (List.mem_singleton_self _))
    have htarget' := hsame.trans htarget
    obtain ⟨inner, last', hrun', rfl, rfl⟩ := h'.of_included htarget'
    have hinside := hold.of_sameSetting (inc.sameSetting_inside ctx)
    have hend := ih hinside (halike.inside inc) (fun _ hinc => nomatch hinc) hrun'
    exact .included halike htarget htarget' hrun.keeps hrun'.keeps hend
  | @fragment tag id children ctx visits answer after _ ih =>
    cases h' with
    | fragment hrun' =>
      rw [Subject.includes, Node.includes_fragment] at hsubject
      exact (ih hold halike hsubject hrun').fragment tag id children
  | nil =>
    cases h'
    exact ⟨.ok _ _, halike, rfl, rfl⟩
  | stopped _ ih =>
    have hnode := fun inc hinc => hsubject inc (List.mem_append_left _ hinc)
    -- where the first node fails in one run it fails in the other
    cases h' with
    | stopped hrun' => exact ih hold halike hnode hrun'
    | next hrun' _ => cases (ih hold halike hnode hrun').answers.isOk_eq
  | @next node nodes ctx visits first mid more answer after hrun _ ih ihMore =>
    have hnode := fun inc hinc => hsubject inc (List.mem_append_left _ hinc)
    have hnodes := fun inc hinc => hsubject inc (List.mem_append_right _ hinc)
    cases h' with
    | stopped hrun' => cases (ih hold halike hnode hrun').answers.isOk_eq
    | next hrun' hmore' =>
      have hend := ih hold halike hnode hrun'
      -- the other nodes are resolved in what the first one has left, which is alike again
      have hmid := hold.of_sameSetting hrun.keeps.toSameSetting
      exact hend.append (ihMore hmid hend.after hnodes hmore')

/-! ## The text of a run -/

/-- What a token shows: what stands in it, or the value of its variable as it is. -/
def shownBy (env : Environment) : Token → String
  | .literal text => text
  | .variable name => (env name).getD ""
  | .parameter expr => (Token.parameter expr).render
  | .endOfText => ""

/-- What a visited text shows, token by token. Other nodes show nothing of their own. -/
def Visit.pieces : Visit → List String
  | (.text tokens, ctx) => tokens.map (shownBy ctx.get?)
  | _ => []

/-- The text of tokens is what they show, one after the other. -/
theorem eq_join_of_renderTokens {values : Dict String} {tokens : List Token} {text : String}
    (h : renderTokens values tokens = .ok text) :
    text = String.join (tokens.map (shownBy values.get?)) := by
  induction tokens generalizing text with
  | nil => exact (Except.ok.inj h).symm
  | cons token tokens ih =>
    -- a piece stands in front of what the other tokens show
    have hjoin : ∀ piece : String, (renderTokens values tokens).map (piece ++ ·) = .ok text →
        text = piece ++ String.join (tokens.map (shownBy values.get?)) := by
      intro piece hmap
      obtain ⟨rest, hrest, rfl⟩ := map_eq_ok.1 hmap
      rw [← ih hrest]
    rw [List.map_cons, String.join_cons]
    cases token with
    | literal piece => exact hjoin piece h
    | parameter expr => exact hjoin _ h
    | endOfText =>
      rw [shownBy, String.empty_append]
      exact ih h
    | «variable» name =>
      rw [renderTokens] at h
      split at h
      · cases h
      · rename_i value hvalue
        rw [shownBy, hvalue]
        exact hjoin value h

/-- **The text of a run is what its visits show**: the literal parts of texts as they stand there and
the values of variables as they are, one after the other. No part of a value is looked at again. -/
theorem Run.text_eq {subject : Subject} {ctx after : Context} {visits : List Visit} {text : String}
    (h : Run subject ctx visits (.ok text) after) :
    text = String.join (visits.flatMap Visit.pieces) := by
  generalize hanswer : Except.ok text = answer at h
  induction h generalizing text with
  | missing | cyclic | aimless | stopped => cases hanswer
  | property | nil => cases hanswer; rfl
  | text =>
    rw [List.flatMap_singleton]
    exact eq_join_of_renderTokens hanswer.symm
  | entered _ _ _ ih => exact ih hanswer
  | included _ _ ih => exact ih hanswer
  | fragment _ ih => exact ih hanswer
  | next _ _ ih ihMore =>
    obtain ⟨rest, hrest, rfl⟩ := map_eq_ok.1 hanswer.symm
    rw [List.flatMap_append, String.join_append, ← ih rfl, ← ihMore hrest.symm]

/-! ## Statements -/

/-- **Values cannot steer the resolution of a statement.** Take two contexts with the same nodes
registered and the same setting, with scoped bindings or without, in which the same variables have
values, and those from which a reference in a registered fragment is read the same values. With cycle
detection a statement comes to an answer in both: to a text in both, or to the same error. Both runs
look up the same names one after the other, come to the same nodes, and leave values to the same
variables. A text is put together from what the visited texts show; a value is shown as it is,
whatever placeholders it spells. -/
theorem resolveStatement_alike {ctx ctx' : Context} {library : Dict Node} (hold : ctx.Holds library)
    (hdetect : ctx.options.detectCycles = true) (halike : ctx.Alike (Steers library) ctx')
    (id : String) :
    ∃ answer after answer' after',
      ctx.resolveStatement id = some (answer, after) ∧
      ctx'.resolveStatement id = some (answer', after') ∧
      AnswersAlike answer answer' ∧
      ctx'.lookUps (qualify ctx.space id) = ctx.lookUps (qualify ctx.space id) ∧
      (ctx'.visits (qualify ctx.space id)).map Prod.fst
        = (ctx.visits (qualify ctx.space id)).map Prod.fst ∧
      (∀ name, (after'.get? name).isSome = (after.get? name).isSome) ∧
      (∀ text, answer = .ok text →
        text = String.join ((ctx.visits (qualify ctx.space id)).flatMap Visit.pieces)) ∧
      ∀ text, answer' = .ok text →
        text = String.join ((ctx'.visits (qualify ctx.space id)).flatMap Visit.pieces) := by
  have hold' : ctx'.Holds library := hold.of_sameSetting halike.toSameSetting
  have hdetect' : ctx'.options.detectCycles = true := halike.options ▸ hdetect
  obtain ⟨answer, after, heq, hrun⟩ := Context.exists_run hold hdetect (qualify ctx.space id)
  obtain ⟨answer', after', heq', hrun'⟩ := Context.exists_run hold' hdetect' (qualify ctx.space id)
  have hend := hrun.alike hold halike (fun _ hinc => nomatch hinc) hrun'
  refine ⟨answer, after, answer', after', heq, ?_, hend.answers, ?_, hend.nodes,
    hend.after.values.bound, ?_, ?_⟩
  · rw [Context.resolveStatement, halike.space]
    exact heq'
  · rw [Context.lookUps, Context.lookUps, hend.lookUps]
  · rintro text rfl
    exact hrun.text_eq
  · rintro text rfl
    exact hrun'.text_eq

/-- The context of the sample with a value that spells placeholders, each for a variable that has a
value. -/
def Lexical.placeholderContext : Context := sampleContext.set "t" "$t $\x7bt\x7d #\x7bt\x7d"

/-- A value that spells placeholders is shown as it is. -/
theorem resolveStatement_alike_placeholders :
    Lexical.sampleContext.Holds (Dict.ofList Lexical.sampleNodes) ∧
    Lexical.sampleContext.options.detectCycles = true ∧
    Lexical.sampleContext.Alike (Steers (Dict.ofList Lexical.sampleNodes))
      Lexical.placeholderContext ∧
    (Lexical.sampleContext.resolveStatement "top").map Prod.fst = some (.ok "t=210") ∧
    ∃ after', Lexical.placeholderContext.resolveStatement "top"
      = some (.ok "t=21$t $\x7bt\x7d #\x7bt\x7d", after') := by
  have hold : Lexical.sampleContext.Holds (Dict.ofList Lexical.sampleNodes) :=
    Context.holds_registerNodes rfl Lexical.sampleNodes
  have halike : Lexical.sampleContext.Alike (Steers (Dict.ofList Lexical.sampleNodes))
      Lexical.placeholderContext := by
    refine Context.alike_set ?_ ?_ _
    · decide +kernel
    · decide +kernel
  have htop : (Lexical.sampleContext.resolveStatement "top").map Prod.fst = some (.ok "t=210") := by
    decide +kernel
  refine ⟨hold, rfl, halike, htop, ?_⟩
  obtain ⟨answer, after, answer', after', hanswer, hanswer', hends, -, -, -, -, htext⟩ :=
    resolveStatement_alike hold rfl halike "top"
  rw [hanswer, Option.map_some, Option.some.injEq] at htop
  -- the first answer is a text, so the second one is
  rcases hends with ⟨text, text', -, rfl⟩ | ⟨e, herror, -⟩
  · -- the text of the second run is read off its visits
    have hshown : text' = "t=21$t $\x7bt\x7d #\x7bt\x7d" := by
      rw [htext text' rfl]
      decide +kernel
    exact ⟨after', hshown ▸ hanswer'⟩
  · cases htop.symm.trans herror

end SqlFragments
