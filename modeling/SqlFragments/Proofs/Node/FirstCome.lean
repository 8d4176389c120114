import SqlFragments.Proofs.Node.Properties

/-! # The first binding of a name stays

An include can be given children any number of times, and a call that fails keeps what it did before
its failure. All that matters is which properties have been accepted so far: of two with one name the
second is refused, and ends the call in which it comes.

* `Include.binding`: what a name is bound to once properties have been accepted, the first of its
  name counting; `Include.Admits`: properties that find their names free, one after the other;
* `Include.History`: calls with their answers, against nothing but the list of what was accepted;
* `Include.addChildren_of_admits`, `Include.addChildren_of_taken`: what one call does;
* `Include.addChildren_firstCome`: every sequence of calls is such a history, and the bindings are what
  it says. -/

namespace SqlFragments

namespace Include

/-! ## What is accepted -/

section

variable (inc : Include)

/-- What a name is bound to when `past` has been accepted: its binding in the include itself, or else
the first property of this name. -/
def binding (past : List Property) (name : String) : Option Property :=
  (inc.properties.get? name).or (past.find? (·.name = name))

/-- Whether properties can be accepted behind others: when each of them comes, its name is free. -/
def Admits (past ps : List Property) : Prop :=
  ∀ before p after, ps = before ++ p :: after → inc.binding (past ++ before) p.name = none

/-- What an include has become once `past` has been accepted. Only bindings are added. -/
structure Accepted (past : List Property) (now : Include) : Prop where
  space : now.space = inc.space
  reference : now.reference = inc.reference
  bindings : ∀ name, now.properties.get? name = inc.binding past name

/-- Calls with their answers. Before them `past` has been accepted, and behind them it is the last
list. -/
inductive History : List Property → List (List Node) → List (Except NodeError Unit) →
    List Property → Prop where
  | done (past : List Property) : History past [] [] past
  /-- A call succeeds if all names are free, and its properties are accepted. -/
  | accepted {past last : List Property} {nodes : List Node} {lists : List (List Node)}
      {answers : List (Except NodeError Unit)} (hfree : inc.Admits past (propertiesAmong nodes))
      (hmore : History (past ++ propertiesAmong nodes) lists answers last) :
    History past (nodes :: lists) (.ok () :: answers) last
  /-- A call fails at the first property whose name is taken, be it by an earlier call or by this one.
  What stands before it is accepted, and what stands behind it is not looked at. -/
  | refused {past last : List Property} {before after : List Node} {p : Property}
      {lists : List (List Node)} {answers : List (Except NodeError Unit)}
      (hfree : inc.Admits past (propertiesAmong before))
      (htaken : inc.binding (past ++ propertiesAmong before) p.name ≠ none)
      (hmore : History (past ++ propertiesAmong before) lists answers last) :
    History past ((before ++ .property p :: after) :: lists)
      (.error (.duplicateProperty p.name) :: answers) last

/-- Before anything is accepted the bindings are those of the include. -/
theorem binding_nil (name : String) : inc.binding [] name = inc.properties.get? name :=
  Option.or_none

/-- What is accepted later counts only where nothing was bound. -/
theorem binding_append (past more : List Property) (name : String) :
    inc.binding (past ++ more) name
      = (inc.binding past name).or (more.find? (·.name = name)) := by
  rw [binding, List.find?_append, ← Option.or_assoc, ← binding]

/-- What is bound stays bound to the same. -/
theorem binding_append_of_some {past : List Property} {name : String} {p : Property}
    (h : inc.binding past name = some p) (more : List Property) :
    inc.binding (past ++ more) name = some p := by
  rw [binding_append, h, Option.some_or]

/-- No properties at all can always be accepted. -/
theorem admits_nil (past : List Property) : inc.Admits past [] := by
  intro before p after h
  simp at h

/-- The first of several properties takes its name away from the others. -/
theorem admits_cons_iff {past ps : List Property} {p : Property} :
    inc.Admits past (p :: ps) ↔ inc.binding past p.name = none ∧ inc.Admits (past ++ [p]) ps := by
  constructor
  · intro h
    refine ⟨?_, fun before q after hps => ?_⟩
    · simpa using h [] p ps rfl
    · simpa using h (p :: before) q after (congrArg (p :: ·) hps)
  · rintro ⟨hfirst, hrest⟩ before q after hps
    cases before with
    | nil =>
      obtain ⟨rfl, -⟩ := List.cons.inj hps
      simpa using hfirst
    | cons r before =>
      obtain ⟨rfl, rfl⟩ := List.cons.inj hps
      simpa using hrest before q after rfl

/-- **Either all names are free, or one is the first that is taken.** -/
theorem admits_or_taken (past : List Property) (nodes : List Node) :
    inc.Admits past (propertiesAmong nodes) ∨ ∃ before p after,
      nodes = before ++ .property p :: after ∧ inc.Admits past (propertiesAmong before) ∧
        inc.binding (past ++ propertiesAmong before) p.name ≠ none := by
  -- the properties that have been found free join those of the past
  induction nodes generalizing past with
  | nil => exact .inl (inc.admits_nil past)
  | cons node nodes ih =>
    by_cases hproperty : ∃ p, node = .property p
    · obtain ⟨p, rfl⟩ := hproperty
      -- if its name is free the property is accepted, and the next ones come behind it
      by_cases hfree : inc.binding past p.name = none
      · rcases ih (past ++ [p]) with hall | ⟨before, q, after, rfl, hbefore, htaken⟩
        · exact .inl (inc.admits_cons_iff.2 ⟨hfree, hall⟩)
        · refine .inr ⟨.property p :: before, q, after, rfl, ?_, ?_⟩
          · exact inc.admits_cons_iff.2 ⟨hfree, hbefore⟩
          · simpa [propertiesAmong_cons_property] using htaken
      · exact .inr ⟨[], p, nodes, rfl, inc.admits_nil past, by simpa [propertiesAmong] using hfree⟩
    -- a child of another kind changes nothing
    · have hother : ∀ p, node ≠ .property p := fun p heq => hproperty ⟨p, heq⟩
      rw [propertiesAmong_cons_other hother]
      rcases ih past with hall | ⟨before, q, after, rfl, hbefore, htaken⟩
      · exact .inl hall
      · refine .inr ⟨node :: before, q, after, rfl, ?_⟩
        rw [propertiesAmong_cons_other hother]
        exact ⟨hbefore, htaken⟩

end

/-! ## One call -/

section

variable {inc now : Include} {past : List Property}

/-- An include that has accepted nothing is what it was. -/
theorem accepted_self (inc : Include) : inc.Accepted [] inc :=
  ⟨rfl, rfl, fun name => (inc.binding_nil name).symm⟩

/-- A property whose name is free is accepted. -/
theorem Accepted.addProperty (h : inc.Accepted past now) {p : Property}
    (hfree : inc.binding past p.name = none) :
    inc.Accepted (past ++ [p]) (now.addProperty p) := by
  refine ⟨h.space, h.reference, fun name => ?_⟩
  rw [Include.addProperty, Dict.get?_insert, binding_append, h.bindings]
  by_cases hname : p.name = name
  · subst hname
    simp [hfree]
  · simp [hname]

/-- **A call with free names** accepts all its properties. Other children have no effect. -/
theorem addChildren_of_admits (h : inc.Accepted past now) {nodes : List Node}
    (hfree : inc.Admits past (propertiesAmong nodes)) :
    ∃ after, now.addChildren nodes = (.ok (), after) ∧
      inc.Accepted (past ++ propertiesAmong nodes) after := by
  fun_induction Include.addChildren now nodes generalizing past with
  | case1 now => exact ⟨now, rfl, by simpa [propertiesAmong] using h⟩
  | case2 now p nodes hthere =>
    -- the name would not be free
    rw [propertiesAmong_cons_property, admits_cons_iff, ← h.bindings] at hfree
    rw [Dict.contains, hfree.1] at hthere
    cases hthere
  | case3 now p nodes _ ih =>
    rw [propertiesAmong_cons_property, admits_cons_iff] at hfree
    obtain ⟨after, hcall, hafter⟩ := ih (h.addProperty hfree.1) hfree.2
    refine ⟨after, hcall, ?_⟩
    rwa [propertiesAmong_cons_property, List.append_cons]
  | case4 now node nodes hother ih =>
    -- a child of another kind is passed over
    rw [propertiesAmong_cons_other hother] at hfree ⊢
    exact ih h hfree

/-- **A call with a name that is taken** accepts what stands before it, and fails. -/
theorem addChildren_of_taken (h : inc.Accepted past now) {before : List Node}
    (hfree : inc.Admits past (propertiesAmong before)) {p : Property}
    (htaken : inc.binding (past ++ propertiesAmong before) p.name ≠ none) (after : List Node) :
    ∃ mid, now.addChildren (before ++ .property p :: after)
        = (.error (.duplicateProperty p.name), mid) ∧
      inc.Accepted (past ++ propertiesAmong before) mid := by
  obtain ⟨mid, hcall, hmid⟩ := addChildren_of_admits h hfree
  have hthere : mid.properties.contains p.name := by
    rw [Dict.contains, hmid.bindings]
    exact Option.isSome_iff_ne_none.2 htaken
  refine ⟨mid, ?_, hmid⟩
  rw [addChildren_append_of_ok hcall, addChildren, if_pos hthere]

/-- **When a call fails**, and with which error. -/
theorem addChildren_eq_error_iff (inc : Include) (nodes : List Node) (e : NodeError) :
    (inc.addChildren nodes).1 = .error e ↔ ∃ before p after,
      nodes = before ++ .property p :: after ∧ inc.Admits [] (propertiesAmong before) ∧
        inc.binding (propertiesAmong before) p.name ≠ none ∧ e = .duplicateProperty p.name := by
  constructor
  · intro hfail
    rcases inc.admits_or_taken [] nodes with hfree | ⟨before, p, after, rfl, hfree, htaken⟩
    · obtain ⟨now, hcall, -⟩ := addChildren_of_admits (accepted_self inc) hfree
      rw [hcall] at hfail
      cases hfail
    · obtain ⟨now, hcall, -⟩ := addChildren_of_taken (accepted_self inc) hfree htaken after
      rw [hcall] at hfail
      exact ⟨before, p, after, rfl, hfree, htaken, (Except.error.inj hfail).symm⟩
  · rintro ⟨before, p, after, rfl, hfree, htaken, rfl⟩
    obtain ⟨now, hcall, -⟩ := addChildren_of_taken (accepted_self inc) hfree htaken after
    rw [hcall]

/-- **Children of other kinds have no effect.** -/
theorem addChildren_eq_propertiesAmong (inc : Include) (nodes : List Node) :
    inc.addChildren nodes = inc.addChildren ((propertiesAmong nodes).map .property) := by
  fun_induction Include.addChildren inc nodes with
  -- the loop stops at the same property, or takes up the same one, on both sides
  | case1 inc => rfl
  | case2 inc p nodes hthere =>
    rw [propertiesAmong_cons_property, List.map_cons, addChildren, if_pos hthere]
  | case3 inc p nodes hnew ih =>
    rw [propertiesAmong_cons_property, List.map_cons, addChildren, if_neg hnew]
    exact ih
  | case4 inc node nodes hother ih =>
    rw [propertiesAmong_cons_other hother]
    exact ih

end

/-! ## Any number of calls -/

/-- Takes up one list of children after the other, whatever the answers are. -/
def addAll (inc : Include) : List (List Node) → List (Except NodeError Unit) × Include
  | [] => ([], inc)
  | nodes :: lists =>
    let (answer, inc) := inc.addChildren nodes
    let (answers, inc) := inc.addAll lists
    (answer :: answers, inc)

/-- Calls can be made in two stages. -/
theorem addAll_append (inc : Include) (lists more : List (List Node)) :
    (inc.addAll (lists ++ more)).2 = ((inc.addAll lists).2.addAll more).2 := by
  induction lists generalizing inc with
  | nil => rfl
  | cons nodes lists ih => exact ih (inc.addChildren nodes).2

/-- **Calls make a history.** -/
theorem exists_history {inc now : Include} {past : List Property} (h : inc.Accepted past now)
    (lists : List (List Node)) :
    ∃ last, inc.History past lists (now.addAll lists).1 last ∧
      inc.Accepted last (now.addAll lists).2 := by
  -- each call is a step of the history, from what the calls before it have accepted
  induction lists generalizing past now with
  | nil => exact ⟨past, .done past, h⟩
  | cons nodes lists ih =>
    rcases inc.admits_or_taken past nodes with hfree | ⟨before, p, after, rfl, hfree, htaken⟩
    · obtain ⟨mid, hcall, hmid⟩ := addChildren_of_admits h hfree
      obtain ⟨last, hhistory, hlast⟩ := ih hmid
      rw [addAll, hcall]
      exact ⟨last, .accepted hfree hhistory, hlast⟩
    · obtain ⟨mid, hcall, hmid⟩ := addChildren_of_taken h hfree htaken after
      obtain ⟨last, hhistory, hlast⟩ := ih hmid
      rw [addAll, hcall]
      exact ⟨last, .refused hfree htaken hhistory, hlast⟩

/-- **What is bound stays bound to the same**, whatever calls follow. -/
theorem get?_addAll_of_some {inc : Include} {name : String} {p : Property}
    (h : inc.properties.get? name = some p) (lists : List (List Node)) :
    (inc.addAll lists).2.properties.get? name = some p := by
  obtain ⟨last, -, hlast⟩ := exists_history (accepted_self inc) lists
  have hbound : inc.binding [] name = some p := by
    rw [binding_nil, h]
  rw [hlast.bindings, ← List.nil_append last]
  exact inc.binding_append_of_some hbound last

/-- **The first property of a name is its binding.** A call fails just if one of its properties has a
name that is bound already or that comes before it in the call, with the name of the first such
property; children of other kinds have no effect. Any sequence of calls is a history of what they
accept: of each call the properties up to the first whose name is taken, and nothing behind it. After
every call the bindings are those from before the first of them and, under any other name, the first
property that was accepted; what is bound is never bound anew. -/
theorem addChildren_firstCome (inc : Include) :
    (∀ nodes e, (inc.addChildren nodes).1 = .error e ↔ ∃ before p after,
      nodes = before ++ .property p :: after ∧ inc.Admits [] (propertiesAmong before) ∧
        inc.binding (propertiesAmong before) p.name ≠ none ∧ e = .duplicateProperty p.name) ∧
    (∀ nodes, inc.addChildren nodes = inc.addChildren ((propertiesAmong nodes).map .property)) ∧
    ∀ lists,
      (∃ accepted, inc.History [] lists (inc.addAll lists).1 accepted ∧
        inc.Accepted accepted (inc.addAll lists).2) ∧
      ∀ more name p, (inc.addAll lists).2.properties.get? name = some p →
        (inc.addAll (lists ++ more)).2.properties.get? name = some p := by
  refine ⟨inc.addChildren_eq_error_iff, inc.addChildren_eq_propertiesAmong, fun lists => ⟨?_, ?_⟩⟩
  · exact exists_history (accepted_self inc) lists
  · intro more name p hbound
    rw [addAll_append]
    exact get?_addAll_of_some hbound more

/-- Two calls that fail, the first with a property before its fault that the second then repeats. -/
def refusedCalls : List (List Node) :=
  [[.property ⟨"a", "1"⟩, .text [], .property ⟨"b", "2"⟩, .property ⟨"a", "3"⟩,
      .property ⟨"c", "4"⟩],
    [.property ⟨"c", "5"⟩, .property ⟨"b", "6"⟩, .property ⟨"d", "7"⟩]]

/-- The property behind the fault of the first call is not there when the second call comes, and a
later call does not change what the two have left behind. -/
theorem addChildren_firstCome_refusedCalls :
    ((empty "m").addAll refusedCalls).1
      = [.error (.duplicateProperty "a"), .error (.duplicateProperty "b")] ∧
    ((empty "m").addAll (refusedCalls ++ [[.property ⟨"c", "8"⟩]])).2.properties.get? "c"
      = some ⟨"c", "5"⟩ := by
  obtain ⟨-, -, hcalls⟩ := addChildren_firstCome (empty "m")
  have hbound : ((empty "m").addAll refusedCalls).2.properties.get? "c" = some ⟨"c", "5"⟩ := by
    decide +kernel
  exact ⟨by decide +kernel, (hcalls refusedCalls).2 [[.property ⟨"c", "8"⟩]] "c" _ hbound⟩

end Include

end SqlFragments
