import SqlFragments.Node.Build
import SqlFragments.Proofs.Placeholder.Spans
import SqlFragments.Resolution

/-! # What a text is resolved to

The resolution of a text keeps its literal stretches as they are, puts the value of a variable where the
variable is named and trims what stands between the braces of a parameter. It does so span by span, and
no value is looked at again.

* `Span.substituted`: what comes in the place of a span;
* `renderTokens_spans`, `renderTokens_spans_unbound`: with values for all variables, and without;
* `Node.Substitutes`: all that a resolution can come to;
* `Node.resolve_ofText`: so is every text resolved, by the one way in which it falls into spans. -/

namespace SqlFragments

open SqlFragments.Placeholder SqlFragments.Text

/-! ## In place of spans -/

/-- The variable that a span names. -/
def Placeholder.Span.name? : Span → Option String
  | .literal _ => none
  | .bare name => some (String.ofList name)
  | .braced .dollar body => some (String.ofList (trim body))
  | .braced .hash _ => none

/-- What comes in the place of a span when variables have these values. -/
def Placeholder.Span.substituted (value : String → String) : Span → List Char
  | .literal text => text
  | .bare name => (value (String.ofList name)).toList
  | .braced .dollar body => (value (String.ofList (trim body))).toList
  | .braced .hash body => '#' :: '{' :: (trim body ++ ['}'])

/-- The variables that spans name, from left to right. -/
def Placeholder.variableNames (spans : List Span) : List String := spans.filterMap Span.name?

section

variable {values : Dict String} {value : String → String} {span : Span} {spans : List Span}

/-- A span is read as a variable just where it names one. -/
theorem Placeholder.Span.token_eq_variable_iff {name : String} :
    span.token = .variable name ↔ span.name? = some name := by
  cases span with
  | literal text => simp [token, name?]
  | bare text => simp [token, name?]
  | braced sigil body => cases sigil <;> simp [token, name?]

/-- The variables that spans name are those among their tokens. -/
theorem mem_variableNames_iff {name : String} :
    name ∈ variableNames spans ↔ .variable name ∈ spans.map Span.token := by
  simp [variableNames, Span.token_eq_variable_iff]

/-- Where a span's variable has a value, the span is replaced and the rest goes on. -/
theorem renderTokens_token (value : String → String)
    (h : ∀ name ∈ span.name?, values.get? name = some (value name))
    (ts : List Token) : renderTokens values (span.token :: ts)
      = (renderTokens values ts).map (String.ofList (span.substituted value) ++ ·) := by
  cases span with
  | literal text => rfl
  | bare name =>
    have hvalue := h _ rfl
    rw [Span.token, renderTokens, hvalue, Span.substituted, String.ofList_toList]
  | braced sigil body =>
    cases sigil with
    | dollar =>
      have hvalue := h _ rfl
      rw [Span.token, renderTokens, hvalue, Span.substituted, String.ofList_toList]
    | hash =>
      have hshape : (Token.parameter (String.ofList (trim body))).render
          = String.ofList ('#' :: '{' :: (trim body ++ ['}'])) := by
        rw [← String.toList_inj]
        simp [Token.render]
      rw [Span.token, renderTokens, hshape]
      rfl

/-- Where a span's variable has no value, this is the answer, whatever follows. -/
theorem renderTokens_token_unbound {name : String} (hname : span.name? = some name)
    (hnone : values.get? name = none) (ts : List Token) :
    renderTokens values (span.token :: ts) = .error (.undefinedVariable name) := by
  rw [Span.token_eq_variable_iff.2 hname, renderTokens, hnone]

/-- What spans name is what the first of them names, or what the others do. -/
theorem mem_variableNames_cons {name : String} :
    name ∈ variableNames (span :: spans) ↔ span.name? = some name ∨ name ∈ variableNames spans := by
  simp only [mem_variableNames_iff, List.map_cons, List.mem_cons, ← Span.token_eq_variable_iff]
  rw [eq_comm]

/-- **Every variable is replaced by its value.** -/
theorem renderTokens_spans (h : ∀ name ∈ variableNames spans, values.get? name = some (value name)) :
    renderTokens values (spans.map Span.token)
      = .ok (String.ofList (spans.flatMap (Span.substituted value))) := by
  induction spans with
  | nil => rfl
  | cons span spans ih =>
    have hspan := fun name hname => h name (mem_variableNames_cons.2 (.inl hname))
    have hrest := ih fun name hname => h name (mem_variableNames_cons.2 (.inr hname))
    rw [List.map_cons, renderTokens_token value hspan, hrest, List.flatMap_cons, String.ofList_append]
    rfl

/-- **The leftmost variable without a value is reported.** -/
theorem renderTokens_spans_unbound {before after : List String} {name : String}
    (hsplit : variableNames spans = before ++ name :: after)
    (hbefore : ∀ other ∈ before, values.get? other ≠ none) (hnone : values.get? name = none) :
    renderTokens values (spans.map Span.token) = .error (.undefinedVariable name) := by
  induction spans generalizing before with
  | nil => simp [variableNames] at hsplit
  | cons span spans ih =>
    rw [List.map_cons]
    cases hspan : span.name? with
    | none =>
      -- a span without a variable cannot fail
      have hrest : variableNames spans = before ++ name :: after := by
        rw [← hsplit, variableNames, variableNames, List.filterMap_cons_none hspan]
      rw [renderTokens_token (fun _ => "") (by simp [hspan]), ih hrest hbefore]
      rfl
    | some first =>
      have hcons : first :: variableNames spans = before ++ name :: after := by
        rw [← hsplit, variableNames, variableNames, List.filterMap_cons_some hspan]
      cases before with
      | nil =>
        obtain ⟨rfl, -⟩ := List.cons.inj hcons
        exact renderTokens_token_unbound hspan hnone _
      | cons other before =>
        obtain ⟨rfl, hrest⟩ := List.cons.inj hcons
        obtain ⟨found, hfound⟩ := Option.ne_none_iff_exists'.1 (hbefore first List.mem_cons_self)
        have hvalue : ∀ name ∈ span.name?, values.get? name = some found := by
          rintro name hname
          rw [hspan] at hname
          obtain rfl := Option.some.inj hname
          exact hfound
        rw [renderTokens_token (fun _ => found) hvalue,
          ih hrest fun other hother => hbefore other (List.mem_cons_of_mem _ hother)]
        rfl

/-- Without variables the substituted text is the written form of what was read. -/
theorem renderAll_map_token (value : String → String) (h : variableNames spans = []) :
    Token.renderAll (spans.map Span.token) = spans.flatMap (Span.substituted value) := by
  induction spans with
  | nil => rfl
  | cons span spans ih =>
    have hspan : span.name? = none := by
      rw [Option.eq_none_iff_forall_not_mem]
      intro name hname
      have hmem : name ∈ variableNames (span :: spans) := mem_variableNames_cons.2 (.inl hname)
      rw [h] at hmem
      cases hmem
    have hrest : variableNames spans = [] := by
      rw [← h, variableNames, variableNames, List.filterMap_cons_none hspan]
    rw [List.map_cons, Token.renderAll, ih hrest, List.flatMap_cons]
    congr 1
    cases span with
    | literal text => exact String.toList_ofList
    | bare name => cases hspan
    | braced sigil body =>
      cases sigil with
      | dollar => cases hspan
      | hash => simp [Span.token, Token.render, Span.substituted]

end

/-! ## Texts -/

/-- What the resolution of a text with these spans comes to. The context stays as it is. -/
structure Node.Substitutes (node : Node) (spans : List Span) (ctx : Context) : Prop where
  /-- It succeeds just if all variables that are named have values. -/
  succeeds_iff : (∃ sql after, ctx.resolveNode node = some (.ok sql, after)) ↔
    ∀ name ∈ variableNames spans, ctx.get? name ≠ none
  /-- What is kept, and what comes in the place of placeholders. -/
  text : ∀ value : String → String, (∀ name ∈ variableNames spans, ctx.get? name = some (value name)) →
    ctx.resolveNode node
      = some (.ok (String.ofList (spans.flatMap (Span.substituted value))), ctx)
  /-- If it fails then for the leftmost variable without a value. -/
  error : ∀ before name after, variableNames spans = before ++ name :: after →
    (∀ other ∈ before, ctx.get? other ≠ none) → ctx.get? name = none →
    ctx.resolveNode node = some (.error (.undefinedVariable name), ctx)

/-- A text node comes to its replaced tokens, and leaves the context as it is. -/
theorem Context.resolveNode_text (ctx : Context) (ts : List Token) :
    ctx.resolveNode (.text ts) = some (renderTokens ctx.bindings.values ts, ctx) :=
  rfl

/-- A text node that could be read has the tokens of spans of its text. -/
theorem exists_of_ofText_eq_ok {text : String} {node : Node} (h : Node.ofText text = .ok node) :
    ∃ spans, Scans text.toList spans [] ∧ node = .text (spans.map Span.token) := by
  rw [Node.ofText] at h
  split at h
  · cases h
  · rename_i ts hts
    cases h
    obtain ⟨spans, hscans, rfl⟩ := tokenize_eq_ok_iff.1 hts
    exact ⟨spans, hscans, rfl⟩

/-- Among names that are not all bound there is a first one that is not. -/
theorem exists_leftmost_unbound {ctx : Context} {names : List String}
    (h : ¬ ∀ name ∈ names, ctx.get? name ≠ none) : ∃ before name after,
      names = before ++ name :: after ∧ (∀ other ∈ before, ctx.get? other ≠ none) ∧
        ctx.get? name = none := by
  have hfind : (names.find? fun name => (ctx.get? name).isNone) ≠ none := by
    rw [ne_eq, List.find?_eq_none]
    simpa using h
  obtain ⟨name, hname⟩ := Option.ne_none_iff_exists'.1 hfind
  obtain ⟨hnone, before, after, hsplit, hbefore⟩ := List.find?_eq_some_iff_append.1 hname
  refine ⟨before, name, after, hsplit, fun other hother hunbound => ?_, by simpa using hnone⟩
  simpa [hunbound] using hbefore other hother

/-- The node read from spans replaces each of them. -/
theorem Node.substitutes_text (spans : List Span) (ctx : Context) :
    (Node.text (spans.map Span.token)).Substitutes spans ctx := by
  have htext : ∀ value : String → String,
      (∀ name ∈ variableNames spans, ctx.get? name = some (value name)) →
      ctx.resolveNode (.text (spans.map Span.token))
        = some (.ok (String.ofList (spans.flatMap (Span.substituted value))), ctx) := by
    intro value hvalue
    rw [Context.resolveNode_text, renderTokens_spans hvalue]
  have herror : ∀ before name after, variableNames spans = before ++ name :: after →
      (∀ other ∈ before, ctx.get? other ≠ none) → ctx.get? name = none →
      ctx.resolveNode (.text (spans.map Span.token))
        = some (.error (.undefinedVariable name), ctx) := by
    intro before name after hsplit hbefore hnone
    rw [Context.resolveNode_text, renderTokens_spans_unbound hsplit hbefore hnone]
  refine ⟨⟨?_, ?_⟩, htext, herror⟩
  · rintro ⟨sql, after, hok⟩
    by_contra hunbound
    obtain ⟨before, name, after', hsplit, hbefore, hnone⟩ := exists_leftmost_unbound hunbound
    have hfailed := herror before name after' hsplit hbefore hnone
    rw [hok] at hfailed
    cases hfailed
  · intro hbound
    refine ⟨_, _, htext (fun name => (ctx.get? name).getD "") fun name hname => ?_⟩
    obtain ⟨value, hvalue⟩ := Option.ne_none_iff_exists'.1 (hbound name hname)
    simp [hvalue]

/-- **Resolution of a text is substitution in place.** A text that can be read falls into spans in one
way, and nothing of it is lost, repeated or moved. It is resolved by putting something in the place of
each span, in every context. If it names no variable then what it is resolved to is read as the same
node, and so is resolved to itself. -/
theorem Node.resolve_ofText {text : String} {node : Node} (h : Node.ofText text = .ok node) :
    ∃ spans, Scans text.toList spans [] ∧
      (∀ others, Scans text.toList others [] → others = spans) ∧
      spell spans = text.toList ∧
      (∀ ctx : Context, node.Substitutes spans ctx) ∧
      (variableNames spans = [] → ∃ sql, Node.ofText sql = .ok node ∧
        ∀ ctx : Context, ctx.resolveNode node = some (.ok sql, ctx)) := by
  obtain ⟨spans, hscans, rfl⟩ := exists_of_ofText_eq_ok h
  refine ⟨spans, hscans, fun _ => hscans.unique, ?_, Node.substitutes_text spans, fun hnone => ?_⟩
  · rw [hscans.spelled, List.append_nil]
  · have hnormal : Token.Normal (spans.map Span.token) :=
      (Cursor.tokens_normal (tokenize_eq_ok_iff.2 ⟨spans, hscans, rfl⟩)).1
    have hnames : ∀ name, .variable name ∈ spans.map Span.token → isVariableName name.toList := by
      intro name hname
      rw [← mem_variableNames_iff, hnone] at hname
      cases hname
    have hread := tokenize_renderAll ((Token.wellFormedAll_iff _).2 ⟨hnormal, hnames⟩)
    rw [renderAll_map_token id hnone] at hread
    refine ⟨String.ofList (spans.flatMap (Span.substituted id)), by rw [Node.ofText, hread], ?_⟩
    intro ctx
    exact (Node.substitutes_text spans ctx).text id (by simp [hnone])

/-- A name in braces and a bare one behind sigils that begin nothing, and a parameter with blanks. -/
def Node.mixedText : String := "a #$\x7b t \x7d#$b.c. #\x7b x\n\x7d$"

/-- What is read of it. -/
def Node.mixedTokens : List Token :=
  [.literal "a #", .variable "t", .literal "#", .variable "b.c", .literal ". ", .parameter "x",
    .literal "$"]

/-- The value of the first variable looks like a placeholder, and is not looked at again. Without values
the leftmost variable is reported. -/
theorem Node.resolve_ofText_mixedText :
    Node.ofText Node.mixedText = .ok (.text Node.mixedTokens) ∧
    (∃ spans, Scans Node.mixedText.toList spans [] ∧ spell spans = Node.mixedText.toList ∧
      ∀ ctx : Context, (Node.text Node.mixedTokens).Substitutes spans ctx) ∧
    (((Context.empty "m" {}).set "t" "$\x7bb\x7d").set "b.c" "v").resolveNode (.text Node.mixedTokens)
      = some (.ok "a #$\x7bb\x7d#v. #\x7bx\x7d$",
          ((Context.empty "m" {}).set "t" "$\x7bb\x7d").set "b.c" "v") ∧
    (Context.empty "m" {}).resolveNode (.text Node.mixedTokens)
      = some (.error (.undefinedVariable "t"), Context.empty "m" {}) := by
  have htokens : tokenize Node.mixedText = .ok Node.mixedTokens := by decide +kernel
  have hnode : Node.ofText Node.mixedText = .ok (.text Node.mixedTokens) := by
    rw [Node.ofText, htokens]
  obtain ⟨spans, hscans, -, hspell, hsubstitutes, -⟩ := Node.resolve_ofText hnode
  have hvalues : renderTokens
      (((Context.empty "m" {}).set "t" "$\x7bb\x7d").set "b.c" "v").bindings.values Node.mixedTokens
        = .ok "a #$\x7bb\x7d#v. #\x7bx\x7d$" := by decide +kernel
  have hnone : renderTokens (Context.empty "m" {}).bindings.values Node.mixedTokens
      = .error (.undefinedVariable "t") := by decide +kernel
  refine ⟨hnode, ⟨spans, hscans, hspell, hsubstitutes⟩, ?_, ?_⟩
  · rw [Context.resolveNode_text, hvalues]
  · rw [Context.resolveNode_text, hnone]

end SqlFragments
