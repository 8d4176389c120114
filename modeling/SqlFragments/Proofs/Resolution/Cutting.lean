import SqlFragments.Proofs.Mapper.Reading
import SqlFragments.Proofs.Placeholder.Spans
import SqlFragments.Resolution

/-! # Cutting a text

A text may be cut in two wherever the cut does not go through a placeholder, as it is in a document where
an aside or a section of literal text begins. The reader looks one character ahead, and the cut takes
this character away; yet both parts are read by themselves and show what the whole text shows.

* `Cut`: where a text is cut; `Token.join`: what is done at the cut;
* `Scans.cut`: the parts fall into the spans of the text;
* `Node.resolveAllWith_join`: the parts are resolved, one after the other, as the text is;
* `tokenize_cut`: all of it, with the parts of a statement that are read as the two nodes. -/

namespace SqlFragments

open SqlFragments.Placeholder SqlFragments.Markup

/-! ## Cuts -/

/-- The two parts of a text with these spans, if the cut goes through no placeholder. -/
inductive Cut : List Span → List Char → List Char → Prop where
  /-- The cut goes between two spans, or stands at an end of the text. -/
  | between (before after : List Span) : Cut (before ++ after) (spell before) (spell after)
  /-- The cut goes through literal text. -/
  | through (before after : List Span) {first second : List Char} (hfirst : first ≠ [])
      (hsecond : second ≠ []) :
    Cut (before ++ .literal (first ++ second) :: after) (spell before ++ first)
      (second ++ spell after)

/-- Tokens one after the other; two literal stretches that meet are joined. -/
def Placeholder.Token.join (us vs : List Token) : List Token :=
  match us.getLast?, vs with
  | some (.literal first), .literal second :: vs => us.dropLast ++ .literal (first ++ second) :: vs
  | _, vs => us ++ vs

/-- Where a literal meets a literal, the two become one. -/
theorem Placeholder.Token.join_literals (us vs : List Token) (first second : String) :
    join (us ++ [.literal first]) (.literal second :: vs)
      = us ++ .literal (first ++ second) :: vs := by
  simp [join]

/-- In tokens that have been read no two literal stretches meet. -/
theorem Placeholder.Token.join_of_normal {us vs : List Token} (h : Normal (us ++ vs)) :
    join us vs = us ++ vs := by
  obtain ⟨-, -, hmeet⟩ := List.isChain_append.1 h.apart
  unfold join
  split
  · rename_i first second vs hlast
    exact absurd ⟨rfl, rfl⟩ (hmeet (.literal first) hlast (.literal second) rfl)
  · rfl

/-- Both parts of a literal text that is cut in two are literal texts. -/
theorem isLiteralText_append {first second : List Char} (hfirst : first ≠ []) (hsecond : second ≠ [])
    (h : isLiteralText (first ++ second)) : isLiteralText first ∧ isLiteralText second := by
  simp only [isLiteralText, Bool.and_eq_true, decide_eq_true_eq, Bool.not_eq_true',
    ← Bool.not_eq_true] at h ⊢
  have hpart : ∀ part, part <:+: first ++ second → ¬ holdsPlaceholder part = true :=
    fun part hpart hholds => h.2 (holdsPlaceholder_of_part hpart hholds)
  exact ⟨⟨hfirst, hpart first (List.prefix_append first second).isInfix⟩,
    ⟨hsecond, hpart second (List.suffix_append first second).isInfix⟩⟩

/-- What ends before a literal stretch ends before the first part of it. -/
theorem Placeholder.Span.Stands.of_literal {span : Span} {first second rest : List Char}
    (hfirst : first ≠ []) (hliteral : (Span.literal (first ++ second)).Stands rest)
    (h : span.Stands (first ++ second ++ rest)) : span.Stands first := by
  cases span with
  | literal text =>
    -- no literal stretch ends before another one
    have hends := Span.endsLiteral_spelling hliteral
    exact absurd h.2 (by simpa [Span.spelling, Span.isLiteral] using hends)
  | bare name =>
    refine ⟨h.1, ?_⟩
    have hgoesOn := h.2
    rw [Bool.eq_false_iff] at hgoesOn ⊢
    intro hfirstGoesOn
    apply hgoesOn
    -- the first part has the characters on which it depends
    obtain ⟨c, cs, rfl⟩ := List.exists_cons_of_ne_nil hfirst
    cases cs with
    | nil =>
      have hchar : isNameChar c := by simpa [goesOn, startsNameChar] using hfirstGoesOn
      simp [goesOn, hchar]
    | cons d cs => exact hfirstGoesOn
  | braced sigil body => exact h

/-- **Both parts fall into the spans of the text.** -/
theorem Placeholder.Scans.cut {text u v : List Char} {spans : List Span} (h : Scans text spans [])
    (hcut : Cut spans u v) : ∃ before after, Scans u before [] ∧ Scans v after [] ∧
      Token.join (before.map Span.token) (after.map Span.token) = spans.map Span.token := by
  cases hcut with
  | between before after =>
    have hread : Cursor.tokens ⟨0, text⟩ = .ok ((before ++ after).map Span.token) :=
      tokens_eq_ok_iff.2 ⟨_, h, rfl⟩
    have hnormal := (Cursor.tokens_normal hread).1
    obtain ⟨rest, hbefore, hafter⟩ := scans_append_iff.1 h
    have hfirst : Scans (spell before ++ []) before [] := hbefore.before_brace rfl
    rw [List.append_nil] at hfirst
    have hsecond := hafter
    rw [hafter.spelled, List.append_nil] at hsecond
    refine ⟨before, after, hfirst, hsecond, ?_⟩
    rw [List.map_append] at hnormal ⊢
    exact Token.join_of_normal hnormal
  | @through before after first second hfirst hsecond =>
    obtain ⟨rest, hbefore, hrest⟩ := scans_append_iff.1 h
    obtain ⟨last, rfl, hstands, -, hafter⟩ := scans_cons_iff.1 hrest
    obtain ⟨hfirstText, hsecondText⟩ := isLiteralText_append hfirst hsecond hstands.1
    have hlast : last = spell after := by rw [hafter.spelled, List.append_nil]
    refine ⟨before ++ [.literal first], .literal second :: after, ?_, ?_, ?_⟩
    · have hfirstScans : Scans first [.literal first] [] :=
        scans_cons_iff.2 ⟨[], (List.append_nil first).symm, ⟨hfirstText, rfl⟩, rfl, .done []⟩
      refine scans_append_iff.2 ⟨first, hbefore.before fun span hspan => ?_, hfirstScans⟩
      exact Span.Stands.of_literal hfirst hstands hspan
    · rw [← hlast]
      exact scans_cons_iff.2 ⟨last, rfl, ⟨hsecondText, hstands.2⟩, rfl, hafter⟩
    · simp only [List.map_append, List.map_cons, List.map_nil, Span.token, String.ofList_append]
      exact Token.join_literals _ _ _ _

/-! ## Resolution of the parts -/

/-- Tokens one after the other are replaced one after the other; the first error ends both. -/
theorem renderTokens_append (values : Dict String) (us vs : List Token) :
    renderTokens values (us ++ vs) = (do
      let first ← renderTokens values us
      let second ← renderTokens values vs
      return first ++ second) := by
  have hjoin : ∀ (piece : String) (ts : List Token),
      renderTokens values (ts ++ vs) = (do
        let first ← renderTokens values ts
        let second ← renderTokens values vs
        return first ++ second) →
      (renderTokens values (ts ++ vs)).map (piece ++ ·) = (do
        let first ← (renderTokens values ts).map (piece ++ ·)
        let second ← renderTokens values vs
        return first ++ second) := by
    intro piece ts hts
    rw [hts]
    cases renderTokens values ts with
    | error e => rfl
    | ok first =>
      cases renderTokens values vs with
      | error e => rfl
      | ok second => exact congrArg Except.ok String.append_assoc.symm
  induction us with
  | nil =>
    rw [List.nil_append]
    cases renderTokens values vs with
    | error e => rfl
    | ok text => exact congrArg Except.ok String.empty_append.symm
  | cons token us ih =>
    rw [List.cons_append]
    cases token with
    | literal text => exact hjoin text us ih
    | parameter expr => exact hjoin _ us ih
    | endOfText => exact ih
    | «variable» name =>
      rw [renderTokens, renderTokens]
      cases values.get? name with
      | none => rfl
      | some value => exact hjoin value us ih

/-- Joined literal stretches show what the two of them show. -/
theorem renderTokens_join (values : Dict String) (us vs : List Token) :
    renderTokens values (Token.join us vs) = renderTokens values (us ++ vs) := by
  unfold Token.join
  split
  · rename_i first second vs hlast
    obtain ⟨us, rfl⟩ := List.getLast?_eq_some_iff.1 hlast
    rw [List.dropLast_concat, List.append_assoc, renderTokens_append, renderTokens_append]
    have hliterals : renderTokens values (.literal (first ++ second) :: vs)
        = renderTokens values ([.literal first] ++ .literal second :: vs) := by
      simp only [List.singleton_append, renderTokens]
      cases renderTokens values vs with
      | error e => rfl
      | ok text => exact congrArg Except.ok String.append_assoc
    rw [hliterals]
  · rfl

/-- A text comes first, or its error is the answer. -/
theorem Node.resolveAllWith_text_cons (expand : String → Context → Resolution) (ts : List Token)
    (nodes : List Node) (ctx : Context) : Node.resolveAllWith expand (.text ts :: nodes) ctx
      = match renderTokens ctx.bindings.values ts with
        | .error e => some (.error e, ctx)
        | .ok first => (Node.resolveAllWith expand nodes ctx).map fun r =>
            (r.1.map (first ++ ·), r.2) := by
  rw [Node.resolveAllWith, Node.resolveWith]
  cases renderTokens ctx.bindings.values ts with
  | error e => rfl
  | ok first =>
    simp only
    rcases Node.resolveAllWith expand nodes ctx with _ | ⟨_ | _, _⟩ <;> rfl

/-- **Two texts are resolved as the one they are parts of**, whatever stands around them. -/
theorem Node.resolveAllWith_join (expand : String → Context → Resolution) (us vs : List Token)
    (before after : List Node) (ctx : Context) :
    Node.resolveAllWith expand (before ++ .text us :: .text vs :: after) ctx
      = Node.resolveAllWith expand (before ++ .text (Token.join us vs) :: after) ctx := by
  induction before generalizing ctx with
  | nil =>
    simp only [List.nil_append, Node.resolveAllWith_text_cons, renderTokens_join,
      renderTokens_append]
    cases renderTokens ctx.bindings.values us with
    | error e => rfl
    | ok first =>
      cases renderTokens ctx.bindings.values vs with
      | error e => rfl
      | ok second =>
        rcases Node.resolveAllWith expand after ctx with _ | ⟨_ | more, _⟩
        · rfl
        · rfl
        · exact congrArg (fun text => some (Except.ok text, _)) String.append_assoc.symm
  | cons node before ih =>
    simp only [List.cons_append, Node.resolveAllWith]
    split
    · rw [ih]
    · rfl

/-! ## Parts of statements -/

/-- The text that a part of a statement stands for, with its entities replaced. -/
def Markup.Content.text? : Content → Option (List Char)
  | .text raw => (unescape raw).toOption
  | .cdata raw => some raw
  | _ => none

/-- Character data is read into one text node with its tokens. -/
theorem Reading.part_of_text? {c : Content} {text : List Char} (h : c.text? = some text)
    {ts : List Token} (hts : tokenize (String.ofList text) = .ok ts) (space : String) :
    Reading.part space c = .ok [.text ts] := by
  have hnode : Reading.textNode text = .ok (.text ts) := by
    rw [Reading.textNode, Node.ofText, hts]
    rfl
  cases c with
  | text raw =>
    rw [Content.text?] at h
    cases hraw : unescape raw with
    | error e => simp [hraw, Except.toOption] at h
    | ok text' =>
      obtain rfl : text' = text := by simpa [hraw, Except.toOption] using h
      rw [Reading.part, hraw]
      simp only [Except.mapError, bind, Except.bind, hnode]
      rfl
  | cdata raw =>
    obtain rfl : raw = text := Option.some.inj h
    rw [Reading.part, hnode]
    rfl
  | element | single | aside => cases h

/-- Asides give no nodes, so what they keep apart stays two texts. -/
theorem Reading.parts_of_text? {c d : Content} {first second : List Char}
    (hc : c.text? = some first) (hd : d.text? = some second) {us vs : List Token}
    (hus : tokenize (String.ofList first) = .ok us) (hvs : tokenize (String.ofList second) = .ok vs)
    (space : String) (asides : List Aside) :
    Reading.parts space (c :: (asides.map Content.aside ++ [d])) = .ok [.text us, .text vs] := by
  have hrest : Reading.parts space (asides.map Content.aside ++ [d]) = .ok [.text vs] := by
    induction asides with
    | nil =>
      rw [List.map_nil, List.nil_append, Reading.parts, Reading.part_of_text? hd hvs]
      rfl
    | cons aside asides ih =>
      rw [List.map_cons, List.cons_append, Reading.parts, ih]
      rfl
  rw [Reading.parts, hrest, Reading.part_of_text? hc hus]
  rfl

/-- **A text can be cut between its placeholders.** Both parts are read, and what is read of them,
joined where they meet, is what is read of the text. So they are resolved, one after the other, as the
text is, by themselves and among other nodes. The parts of a statement on the two sides of asides, or
text and a section of literal text next to each other, are read as the two nodes of such a cut. -/
theorem tokenize_cut {u v : String} {ts : List Token} {spans : List Span}
    (h : tokenize (u ++ v) = .ok ts) (hspans : Scans (u ++ v).toList spans [])
    (hcut : Cut spans u.toList v.toList) :
    ∃ us vs, tokenize u = .ok us ∧ tokenize v = .ok vs ∧ Token.join us vs = ts ∧
      (∀ expand ctx, Node.resolveAllWith expand [.text us, .text vs] ctx
        = (Node.text ts).resolveWith expand ctx) ∧
      (∀ expand before after ctx,
        Node.resolveAllWith expand (before ++ .text us :: .text vs :: after) ctx
          = Node.resolveAllWith expand (before ++ .text ts :: after) ctx) ∧
      (∀ space (c d : Content) (asides : List Aside), c.text? = some u.toList →
        d.text? = some v.toList →
        Reading.parts space (c :: (asides.map Content.aside ++ [d])) = .ok [.text us, .text vs]) := by
  obtain ⟨others, hothers, rfl⟩ := tokenize_eq_ok_iff.1 h
  obtain rfl := hspans.unique hothers
  obtain ⟨before, after, hbefore, hafter, hjoin⟩ := hspans.cut hcut
  have hus : tokenize u = .ok (before.map Span.token) := tokenize_eq_ok_iff.2 ⟨before, hbefore, rfl⟩
  have hvs : tokenize v = .ok (after.map Span.token) := tokenize_eq_ok_iff.2 ⟨after, hafter, rfl⟩
  have hamong := fun expand => Node.resolveAllWith_join expand (before.map Span.token)
    (after.map Span.token)
  rw [hjoin] at hamong
  refine ⟨_, _, hus, hvs, hjoin, fun expand ctx => ?_, hamong, fun space c d asides hc hd => ?_⟩
  · have halone := hamong expand [] [] ctx
    rw [List.nil_append, List.nil_append] at halone
    rw [halone, Node.resolveAllWith_text_cons, Node.resolveWith]
    cases renderTokens ctx.bindings.values (others.map Span.token) with
    | error e => rfl
    | ok sql => simp [Node.resolveAllWith, Except.map]
  · refine Reading.parts_of_text? hc hd ?_ ?_ space asides
    · rwa [String.ofList_toList]
    · rwa [String.ofList_toList]

/-- The text is cut behind a period that belongs to no name, in the middle of literal text. -/
theorem tokenize_cut_behindPeriod :
    tokenize ("a $b." ++ "-c #\x7b x\x7d") = .ok [.literal "a ", .variable "b", .literal ".-c ",
      .parameter "x"] ∧
    ∃ us vs, tokenize "a $b." = .ok us ∧ tokenize "-c #\x7b x\x7d" = .ok vs ∧
      Token.join us vs = [.literal "a ", .variable "b", .literal ".-c ", .parameter "x"] := by
  have hread : tokenize ("a $b." ++ "-c #\x7b x\x7d") = .ok [.literal "a ", .variable "b",
      .literal ".-c ", .parameter "x"] := by decide +kernel
  have hlast : Scans "#\x7b x\x7d".toList [.braced .hash [' ', 'x']] [] :=
    scans_cons_iff.2 ⟨[], by decide, by decide +kernel, by decide +kernel, .done []⟩
  have hliteral : Scans ".-c #\x7b x\x7d".toList
      [.literal ['.', '-', 'c', ' '], .braced .hash [' ', 'x']] [] :=
    scans_cons_iff.2 ⟨_, by decide, by decide +kernel, rfl, hlast⟩
  have hbare : Scans "$b.-c #\x7b x\x7d".toList
      [.bare ['b'], .literal ['.', '-', 'c', ' '], .braced .hash [' ', 'x']] [] :=
    scans_cons_iff.2 ⟨_, by decide, by decide +kernel, rfl, hliteral⟩
  have hspans : Scans ("a $b." ++ "-c #\x7b x\x7d").toList
      [.literal ['a', ' '], .bare ['b'], .literal ['.', '-', 'c', ' '], .braced .hash [' ', 'x']] [] :=
    scans_cons_iff.2 ⟨_, by decide, by decide +kernel, rfl, hbare⟩
  have hcut : Cut [.literal ['a', ' '], .bare ['b'], .literal ['.', '-', 'c', ' '],
      .braced .hash [' ', 'x']] "a $b.".toList "-c #\x7b x\x7d".toList :=
    .through [.literal ['a', ' '], .bare ['b']] [.braced .hash [' ', 'x']]
      (List.cons_ne_nil '.' []) (List.cons_ne_nil '-' ['c', ' '])
  obtain ⟨us, vs, hus, hvs, hjoin, -⟩ := tokenize_cut hread hspans hcut
  exact ⟨hread, us, vs, hus, hvs, hjoin⟩

end SqlFragments
