import SqlFragments.Node.Build
import SqlFragments.Proofs.Placeholder.Spans

/-! # The targets of includes

What an include can point at is a text that is nothing but one literal stretch or one variable. An
include takes the first such target that it comes by, and keeps it; a bad target is an error, and ends
the scan in which it was met.

* `Target`: which texts are targets, and of what; `Refusal`: what is wrong with the others;
* `Reference.ofText_eq_ok_iff`, `Reference.ofText_eq_error_iff`: this is how targets are read;
* `Include.scanAll`: scans one after the other, with `Include.reference_scanAll` for what is kept;
* `Include.scan_targets`: all of it. -/

namespace SqlFragments

open SqlFragments.Placeholder SqlFragments.Text

/-! ## Targets -/

/-- What a text stands for as the target of an include. -/
inductive Target : List Char → Reference → Prop where
  /-- A text in which no placeholder begins is an id. -/
  | literal {text : List Char} (hne : text ≠ [])
      (hplain : ∀ part, part <:+ text → startsPlaceholder part = false) :
    Target text (.literal (String.ofList text))
  /-- The name of a variable between braces, with blanks around it. -/
  | braced {left name right : List Char} (hleft : ∀ c ∈ left, isBlank c)
      (hname : isVariableName name) (hright : ∀ c ∈ right, isBlank c) :
    Target ('$' :: '{' :: (left ++ (name ++ (right ++ ['}'])))) (.variable (String.ofList name))
  /-- A name right behind a dollar sign: behind its first character there are characters of names, and
  periods with a character of a name behind them. -/
  | bare {c : Char} {cs : List Char} (hfirst : isNameStart c)
      (hrest : ∀ d rest, d :: rest <:+ cs → isNameChar d ∨ d = '.' ∧ startsNameChar rest) :
    Target ('$' :: c :: cs) (.variable (String.ofList (c :: cs)))

/-- What is wrong with a text that is no target. -/
inductive Refusal (text : String) : NodeError → Prop where
  /-- It has a bad placeholder. -/
  | token {e : TokenError} (h : tokenize text = .error e) : Refusal text (.token e)
  /-- It can be read, but it is something else. -/
  | invalidReference {ts : List Token} (h : tokenize text = .ok ts)
      (hnone : ∀ r, ¬ Target text.toList r) : Refusal text (.invalidReference text)

/-- A text that is read as one token is one span. -/
theorem tokenize_eq_singleton_iff {text : String} {t : Token} : tokenize text = .ok [t]
    ↔ ∃ span : Span, text.toList = span.spelling ∧ span.Stands [] ∧ span.isGood ∧ span.token = t := by
  rw [tokenize_eq_ok_iff]
  constructor
  · rintro ⟨spans, hscans, hmap⟩
    obtain ⟨span, rfl, rfl⟩ := List.map_eq_singleton_iff.1 hmap
    obtain ⟨rest, htext, hstands, hgood, hrest⟩ := scans_cons_iff.1 hscans
    obtain rfl := scans_nil_iff.1 hrest
    exact ⟨span, by rw [htext, List.append_nil], hstands, hgood, rfl⟩
  · rintro ⟨span, htext, hstands, hgood, rfl⟩
    refine ⟨[span], ?_, rfl⟩
    rw [htext, ← List.append_nil span.spelling]
    exact .span hstands hgood (.done [])

/-- The token that a target is read as. -/
def Reference.token : Reference → Token
  | .literal id => .literal id
  | .variable name => .variable name

/-- A text is taken for a reference just if its only token is the one of this reference. -/
theorem Reference.ofText_eq_ok_iff_tokenize {text : String} {r : Reference} :
    Reference.ofText text = .ok r ↔ tokenize text = .ok [r.token] := by
  rw [Reference.ofText]
  cases r <;> split <;> simp_all [token]

/-- A target is read as one token, that of its reference. -/
theorem Target.tokenize {text : String} {r : Reference} (h : Target text.toList r) :
    tokenize text = .ok [r.token] := by
  rw [tokenize_eq_singleton_iff]
  generalize text.toList = cs at h
  cases h with
  | literal hne hplain =>
    refine ⟨.literal cs, rfl, ⟨?_, rfl⟩, rfl, rfl⟩
    have hholds : holdsPlaceholder cs = false := by
      rw [Bool.eq_false_iff, ne_eq, holdsPlaceholder_iff]
      rintro ⟨part, hpart, hstart⟩
      exact Bool.false_ne_true ((hplain part hpart).symm.trans hstart)
    simp [isLiteralText, hne, hholds]
  | @braced left name right hleft hname hright =>
    have hchars : ∀ c ∈ name, isNameChar c ∨ c = '.' := fun _ => isNameChar_of_mem_name hname
    have htrim : trim (left ++ (name ++ right)) = name :=
      trim_append hleft (fun _ => isBlank_of_mem_name hchars) hright
    -- the brace is neither a blank nor in a name
    have hblank : isBlank '}' = false := by decide +kernel
    have hclosed : '}' ∉ left ++ (name ++ right) := by
      simp only [List.mem_append, not_or]
      refine ⟨fun hmem => ?_, brace_notMem_name hchars, fun hmem => ?_⟩
      · exact Bool.false_ne_true (hblank.symm.trans (hleft _ hmem))
      · exact Bool.false_ne_true (hblank.symm.trans (hright _ hmem))
    refine ⟨.braced .dollar (left ++ (name ++ right)), ?_, hclosed, ?_, ?_⟩
    · simp [Span.spelling, Sigil.char]
    · rwa [Span.isGood, htrim]
    · rw [Span.token, htrim, Reference.token]
  | @bare c cs hfirst hrest =>
    exact ⟨.bare (c :: cs), rfl, ⟨isBareName_cons_iff.2 ⟨hfirst, hrest⟩, rfl⟩, rfl, rfl⟩

/-- A text that is read as the token of a reference, and no other one, is a target. -/
theorem target_of_tokenize {text : String} {r : Reference} (h : tokenize text = .ok [r.token]) :
    Target text.toList r := by
  obtain ⟨span, htext, hstands, hgood, htoken⟩ := tokenize_eq_singleton_iff.1 h
  rw [htext]
  -- of the spans only a parameter is read as something that is no target
  cases span with
  | literal cs =>
    cases r with
    | «variable» => cases htoken
    | literal id =>
      obtain rfl := Token.literal.inj htoken
      have hliteral := hstands.1
      simp only [isLiteralText, Bool.and_eq_true, decide_eq_true_eq, Bool.not_eq_true'] at hliteral
      refine .literal hliteral.1 fun part hpart => ?_
      rw [Bool.eq_false_iff]
      intro hstart
      have hholds := holdsPlaceholder_iff.2 ⟨part, hpart, hstart⟩
      exact Bool.false_ne_true (hliteral.2.symm.trans hholds)
  | bare cs =>
    cases r with
    | literal => cases htoken
    | «variable» name =>
      obtain rfl := Token.variable.inj htoken
      obtain ⟨c, rest, rfl, -⟩ := exists_of_isBareName hstands.1
      obtain ⟨hfirst, hrest⟩ := isBareName_cons_iff.1 hstands.1
      exact .bare hfirst hrest
  | braced sigil body =>
    cases sigil with
    | hash => cases r <;> cases htoken
    | dollar =>
      cases r with
      | literal => cases htoken
      | «variable» name =>
        obtain rfl := Token.variable.inj htoken
        obtain ⟨left, right, hbody, hleft, hright⟩ := exists_trim body
        have hspelling : (Span.braced .dollar body).spelling
            = '$' :: '{' :: (left ++ (trim body ++ (right ++ ['}']))) := by
          rw [Span.spelling, Sigil.char]
          nth_rewrite 1 [hbody]
          simp
        rw [hspelling]
        exact .braced hleft hgood hright

/-- **How targets are read.** -/
theorem Reference.ofText_eq_ok_iff {text : String} {r : Reference} :
    Reference.ofText text = .ok r ↔ Target text.toList r :=
  ofText_eq_ok_iff_tokenize.trans ⟨target_of_tokenize, Target.tokenize⟩

/-- **Why other texts are refused.** -/
theorem Reference.ofText_eq_error_iff {text : String} {e : NodeError} :
    Reference.ofText text = .error e ↔ Refusal text e := by
  constructor
  · intro h
    cases htokens : Placeholder.tokenize text with
    | error cause =>
      rw [ofText, htokens] at h
      obtain rfl := Except.error.inj h
      exact .token htokens
    | ok ts =>
      have hnone : ∀ r, ¬ Target text.toList r := by
        intro r hr
        rw [← ofText_eq_ok_iff, h] at hr
        cases hr
      have heq : e = .invalidReference text := by
        -- a text that can be read is refused only as a whole
        rw [ofText, htokens] at h
        split at h <;> simp_all
      rw [heq]
      exact .invalidReference htokens hnone
  · intro h
    cases h with
    | token htokens => rw [ofText, htokens]
    | invalidReference htokens hnone =>
      cases hread : ofText text with
      | ok r => exact absurd (ofText_eq_ok_iff.1 hread) (hnone r)
      | error e =>
        rw [ofText, htokens] at hread
        split at hread <;> simp_all

/-! ## Scans -/

/-- What a text is as a target, if it is one. -/
def Reference.ofText? (text : String) : Option Reference := (Reference.ofText text).toOption

/-- What a text is as a target, if it is one, is what it stands for. -/
theorem Reference.ofText?_eq_some_iff {text : String} {r : Reference} :
    Reference.ofText? text = some r ↔ Target text.toList r := by
  rw [← ofText_eq_ok_iff, ofText?]
  cases ofText text <;> simp [Except.toOption]

/-- Whether a text is a target. -/
def isTarget (text : String) : Bool := (Reference.ofText? text).isSome

/-- A text is a target just if it stands for something. -/
theorem isTarget_iff {text : String} : isTarget text ↔ ∃ r, Target text.toList r := by
  simp only [isTarget, Option.isSome_iff_exists, Reference.ofText?_eq_some_iff]

/-- The texts that attributes give as targets, good and bad ones. -/
def targets (attrs : List Attribute) : List String :=
  (attrs.filter (·.name = "refid")).map (·.value)

/-- An attribute of the right name gives a text as a target. -/
theorem targets_cons {attr : Attribute} (hname : attr.name = "refid") (attrs : List Attribute) :
    targets (attr :: attrs) = attr.value :: targets attrs := by
  simp [targets, hname]

/-- Other attributes give none. -/
theorem targets_cons_other {attr : Attribute} (hname : attr.name ≠ "refid") (attrs : List Attribute) :
    targets (attr :: attrs) = targets attrs := by
  simp [targets, hname]

/-- Those of them that come before the first bad one. -/
def accepted (attrs : List Attribute) : List String := (targets attrs).takeWhile isTarget

/-- What is wrong with the first of these texts that is no target. -/
def FirstRefusal (texts : List String) (e : NodeError) : Prop :=
  ∃ before bad after, texts = before ++ bad :: after ∧
    (∀ text ∈ before, ∃ r, Target text.toList r) ∧ Refusal bad e

/-- Among no texts nothing is refused. -/
theorem not_firstRefusal_nil {e : NodeError} : ¬ FirstRefusal [] e := by
  rintro ⟨before, bad, after, heq, -⟩
  simp at heq

/-- Either the first text is refused, or it is a target and one behind it is the first that is
refused. -/
theorem firstRefusal_cons_iff {text : String} {texts : List String} {e : NodeError} :
    FirstRefusal (text :: texts) e
      ↔ Refusal text e ∨ (∃ r, Target text.toList r) ∧ FirstRefusal texts e := by
  constructor
  · rintro ⟨before, bad, after, heq, hbefore, hbad⟩
    cases before with
    | nil =>
      obtain ⟨rfl, -⟩ := List.cons.inj heq
      exact .inl hbad
    | cons first before =>
      obtain ⟨rfl, rfl⟩ := List.cons.inj heq
      rw [List.forall_mem_cons] at hbefore
      exact .inr ⟨hbefore.1, before, bad, after, rfl, hbefore.2, hbad⟩
  · rintro (hbad | ⟨htext, before, bad, after, rfl, hbefore, hbad⟩)
    · exact ⟨[], text, texts, rfl, by simp, hbad⟩
    · exact ⟨text :: before, bad, after, rfl, List.forall_mem_cons.2 ⟨htext, hbefore⟩, hbad⟩

namespace Include

/-- Takes up one list of attributes after the other, whatever the answers are. -/
def scanAll (inc : Include) : List (List Attribute) → List (Except NodeError Unit) × Include
  | [] => ([], inc)
  | attrs :: lists =>
    let (answer, inc) := inc.scan attrs
    let (answers, inc) := inc.scanAll lists
    (answer :: answers, inc)

/-- What an include points at once it has been offered texts, one after the other. -/
def offered (inc : Include) (texts : List String) : Option Reference :=
  inc.reference.or (texts.findSome? Reference.ofText?)

section Scanning

variable (inc : Include) {attr : Attribute} (attrs : List Attribute)

/-- A scan passes over attributes of other names. -/
theorem scan_other (hname : attr.name ≠ "refid") : inc.scan (attr :: attrs) = inc.scan attrs := by
  rw [scan, if_neg hname]

/-- A scan goes on behind a target, which the include has adopted if it had none. -/
theorem scan_target (hname : attr.name = "refid") {r : Reference}
    (h : Reference.ofText attr.value = .ok r) :
    inc.scan (attr :: attrs) = (inc.adopt r).scan attrs := by
  rw [scan, if_pos hname, h]

/-- A scan ends at a bad target, and leaves the include as it is. -/
theorem scan_refused (hname : attr.name = "refid") {e : NodeError}
    (h : Reference.ofText attr.value = .error e) :
    inc.scan (attr :: attrs) = (.error e, inc) := by
  rw [scan, if_pos hname, h]

/-- **What a scan answers**, whatever the include has. -/
theorem scan_eq_error_iff {e : NodeError} :
    (inc.scan attrs).1 = .error e ↔ FirstRefusal (targets attrs) e := by
  induction attrs generalizing inc with
  | nil => simp [scan, targets, not_firstRefusal_nil]
  | cons attr attrs ih =>
    by_cases hname : attr.name = "refid"
    · rw [targets_cons hname, firstRefusal_cons_iff, ← Reference.ofText_eq_error_iff]
      simp only [← Reference.ofText_eq_ok_iff]
      cases hread : Reference.ofText attr.value with
      | error cause => simp [scan_refused inc attrs hname hread]
      | ok r => simp [scan_target inc attrs hname hread, ih]
    · rw [scan_other inc attrs hname, targets_cons_other hname, ih]

/-- **What an include points at after a scan**, which may have failed. -/
theorem reference_scan : (inc.scan attrs).2.reference = inc.offered (accepted attrs) := by
  induction attrs generalizing inc with
  | nil => simp [scan, accepted, targets, offered]
  | cons attr attrs ih =>
    by_cases hname : attr.name = "refid"
    · -- a bad target ends the scan, and with it the list of what is accepted
      cases hread : Reference.ofText attr.value with
      | error cause =>
        have hread? : Reference.ofText? attr.value = none := by
          rw [Reference.ofText?, hread]
          rfl
        simp [scan_refused inc attrs hname hread, accepted, targets_cons hname, isTarget, hread?,
          offered]
      | ok r =>
        have hread? : Reference.ofText? attr.value = some r := by
          rw [Reference.ofText?, hread]
          rfl
        rw [scan_target inc attrs hname hread, ih]
        simp [accepted, targets_cons hname, isTarget, hread?, offered, adopt]
    · rw [scan_other inc attrs hname, ih, accepted, accepted, targets_cons_other hname]

/-- **A bad target ends the scan.** -/
theorem scan_append_of_refused (before after : List Attribute) {bad : Attribute}
    (hname : bad.name = "refid") (hbad : ∀ r, ¬ Target bad.value.toList r) :
    inc.scan (before ++ bad :: after) = inc.scan (before ++ [bad]) := by
  induction before generalizing inc with
  | nil =>
    cases hread : Reference.ofText bad.value with
    | ok r => exact absurd (Reference.ofText_eq_ok_iff.1 hread) (hbad r)
    | error e =>
      rw [List.nil_append, List.nil_append, scan_refused inc _ hname hread,
        scan_refused inc _ hname hread]
  | cons attr before ih =>
    rw [List.cons_append, List.cons_append, scan, scan]
    split
    · cases Reference.ofText attr.value with
      | ok r => exact ih (inc.adopt r)
      | error e => rfl
    · exact ih inc

end Scanning

section History

variable (inc : Include) (lists : List (List Attribute))

/-- Each scan answers for itself. -/
theorem scanAll_answers :
    List.Forall₂ (fun attrs answer => ∀ e, answer = .error e ↔ FirstRefusal (targets attrs) e)
      lists (inc.scanAll lists).1 := by
  induction lists generalizing inc with
  | nil => exact .nil
  | cons attrs lists ih => exact .cons (fun _ => inc.scan_eq_error_iff attrs) (ih _)

/-- **What an include points at after scans.** -/
theorem reference_scanAll :
    (inc.scanAll lists).2.reference = inc.offered (lists.flatMap accepted) := by
  induction lists generalizing inc with
  | nil => simp [scanAll, offered]
  | cons attrs lists ih =>
    -- what the scans before have left comes first, and then what this one accepts
    rw [scanAll, ih, offered, reference_scan, offered, Option.or_assoc, ← List.findSome?_append,
      ← List.flatMap_cons, offered]

/-- What points at something goes on to do so. -/
theorem reference_scanAll_append {r : Reference} (h : (inc.scanAll lists).2.reference = some r)
    (more : List (List Attribute)) : (inc.scanAll (lists ++ more)).2.reference = some r := by
  rw [reference_scanAll, offered] at h ⊢
  rw [List.flatMap_append, List.findSome?_append, ← Option.or_assoc, h, Option.some_or]

/-- Of texts that are all targets the first one counts. -/
theorem findSome?_ofText?_eq_some_iff {texts : List String} (htexts : ∀ text ∈ texts, isTarget text)
    {r : Reference} : texts.findSome? Reference.ofText? = some r
      ↔ ∃ text rest, texts = text :: rest ∧ Target text.toList r := by
  cases texts with
  | nil => simp
  | cons text rest =>
    obtain ⟨first, hfirst⟩ := isTarget_iff.1 (htexts text List.mem_cons_self)
    have hread := Reference.ofText?_eq_some_iff.2 hfirst
    rw [List.findSome?_cons_of_isSome (by simp [hread])]
    simp [Reference.ofText?_eq_some_iff]

/-- **What a new include points at after scans**: the first target that was accepted in any of them.
-/
theorem reference_scanAll_empty (space : String) {r : Reference} :
    ((empty space).scanAll lists).2.reference = some r
      ↔ ∃ text rest, lists.flatMap accepted = text :: rest ∧ Target text.toList r := by
  have htargets : ∀ text ∈ lists.flatMap accepted, isTarget text := by
    intro text htext
    obtain ⟨attrs, -, hmem⟩ := List.mem_flatMap.1 htext
    exact List.mem_takeWhile_imp hmem
  rw [← findSome?_ofText?_eq_some_iff htargets, reference_scanAll, offered]
  rfl

end History

/-- **What an include points at.** A scan with one target, of an include that has none, gives it just
what the text stands for, and fails just as the text is refused. In a history of scans every one fails
just for its own first bad target, behind which nothing counts; the include points at the first target
that was accepted in any of them, and goes on to do so. -/
theorem scan_targets (space : String) :
    (∀ text, (isTarget text ↔ ∃ r, Target text.toList r) ∧
      (∀ r, ((empty space).scan [⟨"refid", text⟩]).2.reference = some r ↔ Target text.toList r) ∧
      ∀ e, ((empty space).scan [⟨"refid", text⟩]).1 = .error e ↔ Refusal text e) ∧
    (∀ lists,
      List.Forall₂ (fun attrs answer => ∀ e, answer = .error e ↔ FirstRefusal (targets attrs) e)
        lists ((empty space).scanAll lists).1 ∧
      (∀ r, ((empty space).scanAll lists).2.reference = some r
        ↔ ∃ text rest, lists.flatMap accepted = text :: rest ∧ Target text.toList r) ∧
      ∀ more r, ((empty space).scanAll lists).2.reference = some r →
        ((empty space).scanAll (lists ++ more)).2.reference = some r) ∧
    ∀ (inc : Include) (before after : List Attribute) (bad : Attribute), bad.name = "refid" →
      (∀ r, ¬ Target bad.value.toList r) →
      inc.scan (before ++ bad :: after) = inc.scan (before ++ [bad]) := by
  refine ⟨fun text => ⟨isTarget_iff, fun r => ?_, fun e => ?_⟩, fun lists => ⟨?_, ?_, ?_⟩, ?_⟩
  · have haccepted : (empty space).offered (accepted [⟨"refid", text⟩]) = Reference.ofText? text := by
      cases hread : Reference.ofText? text <;>
        simp [accepted, targets, isTarget, hread, offered, empty]
    rw [reference_scan, haccepted, Reference.ofText?_eq_some_iff]
  · rw [scan_eq_error_iff, targets_cons rfl, firstRefusal_cons_iff]
    simp [targets, not_firstRefusal_nil]
  · exact (empty space).scanAll_answers lists
  · exact fun r => reference_scanAll_empty lists space
  · exact fun more r h => (empty space).reference_scanAll_append lists h more
  · exact fun inc before after bad => inc.scan_append_of_refused before after

/-- A scan that fails with its first target, then one that fails with its second. -/
def failedScans : List (List Attribute) :=
  [[⟨"refid", "$\x7b t \x7d."⟩, ⟨"refid", "lost"⟩],
    [⟨"id", "$\x7b"⟩, ⟨"refid", "$t.1"⟩, ⟨"refid", "$\x7b"⟩]]

/-- The second of the scans leaves a target behind, which stays when a good one follows. -/
theorem scan_targets_failedScans :
    ((empty "m").scanAll failedScans).1
      = [.error (.invalidReference "$\x7b t \x7d."), .error (.token (.unterminated 0))] ∧
    ((empty "m").scanAll (failedScans ++ [[⟨"refid", "users"⟩]])).2.reference
      = some (.variable "t.1") ∧
    (empty "m").scan [⟨"refid", "$\x7b t \x7d."⟩, ⟨"refid", "lost"⟩]
      = (empty "m").scan [⟨"refid", "$\x7b t \x7d."⟩] := by
  obtain ⟨htext, hhistory, hstop⟩ := scan_targets "m"
  have hanswers : ((empty "m").scanAll failedScans).1
      = [.error (.invalidReference "$\x7b t \x7d."), .error (.token (.unterminated 0))] := by
    decide +kernel
  have hreference : ((empty "m").scanAll failedScans).2.reference = some (.variable "t.1") := by
    decide +kernel
  have hbad : ∀ r, ¬ Target "$\x7b t \x7d.".toList r := by
    intro r hr
    have htarget := (htext "$\x7b t \x7d.").1.2 ⟨r, hr⟩
    exact absurd htarget (by decide +kernel)
  exact ⟨hanswers, (hhistory failedScans).2.2 [[⟨"refid", "users"⟩]] _ hreference,
    hstop (empty "m") [] [⟨"refid", "lost"⟩] ⟨"refid", "$\x7b t \x7d."⟩ rfl hbad⟩

end Include

end SqlFragments
