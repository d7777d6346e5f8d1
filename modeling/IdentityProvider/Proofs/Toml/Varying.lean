import IdentityProvider.Proofs.Toml.Keys

/-
  What varies with one string of a document.

  A family of values, nodes or statements varies (`Varies`) if it is the same for every text but
  at one place, where the text itself stands as a string.  The tables that a varying list of
  statements makes are there for every text or for none, and vary at one place as well
  (`ofStatements?_varies`): no step that makes them looks at a string.
-/

namespace IdentityProvider.Toml

/-! ## Families -/

/-- A list in which one item varies. -/
inductive Within (Varies : (String → α) → Prop) : (String → List α) → Prop
  | intro (before : List α) (item : String → α) (after : List α) :
    Varies item → Within Varies fun v => before ++ item v :: after

/-- What varies, behind a key that does not. -/
inductive Under (Varies : (String → α) → Prop) : (String → κ × α) → Prop
  | intro (key : κ) (value : String → α) : Varies value → Under Varies fun v => (key, value v)

/-- A literal in which one string varies. -/
inductive Literal.Varies : (String → Literal) → Prop
  | string : Varies fun v => .plain (.string v)
  | item (before : List Literal) (item : String → Literal) (after : List Literal) :
    Varies item → Varies fun v => .array (before ++ item v :: after)
  | member (before : List (List String × Literal)) (path : List String) (value : String → Literal)
    (after : List (List String × Literal)) :
    Varies value → Varies fun v => .table (before ++ (path, value v) :: after)

/-- A statement in which one string of the value varies. -/
inductive Statement.Varies : (String → Statement) → Prop
  | assign (path : List String) (value : String → Literal) :
    Literal.Varies value → Varies fun v => .assign path (value v)

/-- A value in which one string varies. -/
inductive Varies : (String → Toml) → Prop
  | string : Varies .string
  | item (before : List Toml) (item : String → Toml) (after : List Toml) :
    Varies item → Varies fun v => .array (before ++ item v :: after)
  | entry (before : Entries) (key : String) (value : String → Toml) (after : Entries) :
    Varies value → Varies fun v => .table (before ++ (key, value v) :: after)

/-- A node in which one string varies. -/
inductive Node.Varies : (String → Node) → Prop
  | leaf (value : String → Toml) : Toml.Varies value → Varies fun v => .leaf (value v)
  | table (origin : Origin) (before : List (String × Node)) (key : String) (node : String → Node)
    (after : List (String × Node)) :
    Varies node → Varies fun v => .table origin (before ++ (key, node v) :: after)
  | earlier (before : List Toml) (value : String → Toml) (after : List Toml)
    (last : List (String × Node)) :
    Toml.Varies value → Varies fun v => .series (before ++ value v :: after) last
  | last (earlier : List Toml) (before : List (String × Node)) (key : String)
    (node : String → Node) (after : List (String × Node)) :
    Varies node → Varies fun v => .series earlier (before ++ (key, node v) :: after)

/-- A section in which one string of an assignment varies. -/
inductive Section.Varies : (String → Section) → Prop
  | intro (path : List String) (isItem : Bool)
    (assignments : String → List (List String × Literal)) :
    Within (Under Literal.Varies) assignments → Varies fun v => ⟨path, isItem, assignments v⟩

section

variable {V : (String → α) → Prop} {W : (String → β) → Prop}

theorem Within.cons {list : String → List α} (h : Within V list) (x : α) :
    Within V fun v => x :: list v := by
  obtain ⟨before, item, after, hitem⟩ := h
  exact ⟨x :: before, item, after, hitem⟩

theorem Within.append {list : String → List α} (h : Within V list) (more : List α) :
    Within V fun v => list v ++ more := by
  obtain ⟨before, item, after, hitem⟩ := h
  simp only [List.append_assoc, List.cons_append]
  exact ⟨before, item, after ++ more, hitem⟩

theorem Within.concat (list : List α) {item : String → α} (h : V item) :
    Within V fun v => list ++ [item v] :=
  ⟨list, item, [], h⟩

theorem Within.concat_under {list : List (κ × α)} {key : κ} {value : String → α} (h : V value) :
    Within (Under V) fun v => list ++ [(key, value v)] :=
  .concat list ⟨key, value, h⟩

theorem Within.map {list : String → List α} (h : Within V list) {g : α → β}
    (hg : ∀ item, V item → W fun v => g (item v)) : Within W fun v => (list v).map g := by
  obtain ⟨before, item, after, hitem⟩ := h
  simp only [List.map_append, List.map_cons]
  exact ⟨before.map g, fun v => g (item v), after.map g, hg item hitem⟩

/-! ## Families that may not be there -/

/-- A family that is there for every text and varies, or is there for none. -/
def Uniformly (V : (String → α) → Prop) (family : String → Option α) : Prop :=
  (∀ v, family v = none) ∨ ∃ f, V f ∧ ∀ v, family v = some (f v)

theorem uniformly_none : Uniformly V fun _ => none := .inl fun _ => rfl

theorem uniformly_some {f : String → α} (h : V f) : Uniformly V fun v => some (f v) :=
  .inr ⟨f, h, fun _ => rfl⟩

theorem Uniformly.bind {family : String → Option α} (h : Uniformly V family)
    {next : String → α → Option β} (hnext : ∀ f, V f → Uniformly W fun v => next v (f v)) :
    Uniformly W fun v => (family v).bind (next v) := by
  obtain hnone | ⟨f, hf, hsome⟩ := h
  · exact .inl fun v => Option.bind_eq_none_iff.mpr fun a ha => by simp [hnone v] at ha
  · simp only [hsome, Option.bind_some]
    exact hnext f hf

theorem Uniformly.map {family : String → Option α} (h : Uniformly V family)
    {g : String → α → β} (hg : ∀ f, V f → W fun v => g v (f v)) :
    Uniformly W fun v => (family v).map (g v) := by
  simp only [Option.map_eq_bind]
  exact h.bind fun f hf => uniformly_some (hg f hf)

/-- What comes of a value that does not vary. -/
theorem uniformly_bind (o : Option α) {next : String → α → Option β}
    (hnext : ∀ a, Uniformly W fun v => next v a) : Uniformly W fun v => o.bind (next v) := by
  cases o with
  | none => exact uniformly_none
  | some a => exact hnext a

theorem uniformly_map (o : Option α) {g : String → α → β} (hg : ∀ a, W fun v => g v a) :
    Uniformly W fun v => o.map (g v) := by
  simp only [Option.map_eq_bind]
  exact uniformly_bind o fun a => uniformly_some (hg a)

theorem Uniformly.ite_none_left {family : String → Option α} (h : Uniformly V family)
    (refused : Prop) [Decidable refused] :
    Uniformly V fun v => if refused then none else family v := by
  by_cases hrefused : refused
  · simp only [if_pos hrefused]
    exact uniformly_none
  · simp only [if_neg hrefused]
    exact h

theorem Uniformly.ite_none_right {family : String → Option α} (h : Uniformly V family)
    (admitted : Prop) [Decidable admitted] :
    Uniformly V fun v => if admitted then family v else none := by
  by_cases hadmitted : admitted
  · simp only [if_pos hadmitted]
    exact h
  · simp only [if_neg hadmitted]
    exact uniformly_none

end

/-! ## Entries -/

theorem replaceNode_append (key : String) (node : Node) (before after : List (String × Node)) :
    replaceNode key node (before ++ after) =
      if (before.lookup key).isSome then replaceNode key node before ++ after
      else before ++ replaceNode key node after := by
  induction before with
  | nil => rfl
  | cons entry before ih =>
    obtain ⟨k, n⟩ := entry
    by_cases hkey : k = key
    · subst hkey
      simp [replaceNode]
    · have hne : (key == k) = false := beq_eq_false_iff_ne.mpr (Ne.symm hkey)
      rw [List.cons_append, replaceNode, if_neg hkey, ih, List.lookup_cons, hne, replaceNode,
        if_neg hkey]
      split
      · rfl
      · rfl

/-- A node that varies is put in the place of one that does not. -/
theorem replaceNode_varies {key : String} {entries : List (String × Node)} {found : Node}
    (h : entries.lookup key = some found) {node : String → Node} (hnode : Node.Varies node) :
    Within (Under Node.Varies) fun v => replaceNode key (node v) entries := by
  obtain ⟨before, after, rfl, hbefore⟩ := List.lookup_eq_some_iff.mp h
  have hnone : before.lookup key = none :=
    List.lookup_eq_none_iff.mpr fun entry hentry => by simpa using hbefore entry hentry
  simp only [replaceNode_append, hnone, Option.isSome_none, Bool.false_eq_true, if_false,
    replaceNode, if_true]
  exact ⟨before, _, after, key, node, hnode⟩

/-- What varying entries have behind a key does not vary and can be replaced, or it is what varies
and another node that varies can take its place. -/
theorem lookup_varies {entries : String → List (String × Node)}
    (h : Within (Under Node.Varies) entries) (key : String) :
    (∃ found, (∀ v, (entries v).lookup key = found) ∧
      ∀ node, Within (Under Node.Varies) fun v => replaceNode key node (entries v)) ∨
    ∃ node, Node.Varies node ∧ (∀ v, (entries v).lookup key = some (node v)) ∧
      ∀ other, Node.Varies other →
        Within (Under Node.Varies) fun v => replaceNode key (other v) (entries v) := by
  obtain ⟨before, _, after, k, node, hnode⟩ := h
  cases hbefore : before.lookup key with
  | some found =>
    refine .inl ⟨some found, fun v => ?_, fun other => ?_⟩
    · rw [List.lookup_append, hbefore, Option.some_or]
    · simp only [replaceNode_append, hbefore, Option.isSome_some, if_true]
      exact ⟨replaceNode key other before, _, after, k, node, hnode⟩
  | none =>
    by_cases hkey : k = key
    · subst hkey
      refine .inr ⟨node, hnode, fun v => ?_, fun other hother => ?_⟩
      · rw [List.lookup_append, hbefore, Option.none_or, List.lookup_cons_self]
      · simp only [replaceNode_append, hbefore, Option.isSome_none, Bool.false_eq_true, if_false,
          replaceNode, if_true]
        exact ⟨before, _, after, k, other, hother⟩
    · have hne : (key == k) = false := beq_eq_false_iff_ne.mpr (Ne.symm hkey)
      refine .inl ⟨after.lookup key, fun v => ?_, fun other => ?_⟩
      · rw [List.lookup_append, hbefore, Option.none_or, List.lookup_cons, hne]
      · simp only [replaceNode_append, hbefore, Option.isSome_none, Bool.false_eq_true, if_false,
          replaceNode, hkey]
        exact ⟨before, _, replaceNode key other after, k, node, hnode⟩

/-! ## Assignments -/

section

variable {inner : String → List (String × Node)}

theorem Node.varies_table (origin : Origin) (h : Within (Under Node.Varies) inner) :
    Node.Varies fun v => .table origin (inner v) := by
  obtain ⟨before, _, after, key, node, hnode⟩ := h
  exact .table origin before key node after hnode

theorem Node.varies_last (earlier : List Toml) (h : Within (Under Node.Varies) inner) :
    Node.Varies fun v => .series earlier (inner v) := by
  obtain ⟨before, _, after, key, node, hnode⟩ := h
  exact .last earlier before key node after hnode

theorem Node.varies_earlier {earlier : String → List Toml} (h : Within Toml.Varies earlier)
    (last : List (String × Node)) : Node.Varies fun v => .series (earlier v) last := by
  obtain ⟨before, value, after, hvalue⟩ := h
  exact .earlier before value after last hvalue

end

/-- An assignment leaves alone what varies. -/
theorem assign_keeps (value : Toml) (path : List String) {entries : String → List (String × Node)}
    (h : Within (Under Node.Varies) entries) :
    Uniformly (Within (Under Node.Varies)) fun v => assign path value (entries v) := by
  induction path generalizing entries with
  | nil => exact uniformly_none
  | cons key path ih =>
    cases path with
    | nil =>
      simp only [assign]
      obtain ⟨found, hfound, _⟩ | ⟨node, _, hfound, _⟩ := lookup_varies h key
      · simp only [hfound]
        cases found with
        | none => exact uniformly_some (h.append _)
        | some node => exact uniformly_none
      · simp only [hfound]
        exact uniformly_none
    | cons next path =>
      simp only [assign]
      obtain ⟨found, hfound, hreplace⟩ | ⟨node, hnode, hfound, hreplace⟩ := lookup_varies h key
      · simp only [hfound]
        cases found with
        | none => exact uniformly_map _ fun inner => h.append _
        | some node =>
          cases node with
          | leaf other => exact uniformly_none
          | table origin inner =>
            exact (uniformly_map _ fun inner => hreplace (.table origin inner)).ite_none_left _
          | series earlier last =>
            exact (uniformly_map _ fun last => hreplace (.series earlier last)).ite_none_left _
      · simp only [hfound]
        cases hnode with
        | leaf value hvalue => exact uniformly_none
        | table origin before k node after hnode =>
          have hinner := ih (.intro before _ after (.intro k node hnode))
          exact (hinner.map fun _ hf => hreplace _ (Node.varies_table origin hf)).ite_none_left _
        | earlier before item after last hitem =>
          refine (uniformly_map _ fun last => hreplace _ ?_).ite_none_left _
          exact .earlier before item after last hitem
        | last earlier before k node after hnode =>
          have hinner := ih (.intro before _ after (.intro k node hnode))
          exact (hinner.map fun _ hf => hreplace _ (Node.varies_last earlier hf)).ite_none_left _

/-- What is assigned varies in the entries as it does by itself. -/
theorem assign_bears {value : String → Toml} (hvalue : Toml.Varies value) (path : List String)
    (entries : List (String × Node)) :
    Uniformly (Within (Under Node.Varies)) fun v => assign path (value v) entries := by
  induction path generalizing entries with
  | nil => exact uniformly_none
  | cons key path ih =>
    cases path with
    | nil =>
      simp only [assign]
      cases entries.lookup key with
      | none => exact uniformly_some (.concat_under (.leaf value hvalue))
      | some node => exact uniformly_none
    | cons next path =>
      simp only [assign]
      cases hfound : entries.lookup key with
      | none => exact (ih []).map fun _ hf => .concat_under (Node.varies_table .dotted hf)
      | some node =>
        cases node with
        | leaf other => exact uniformly_none
        | table origin inner =>
          exact ((ih inner).map fun _ hf =>
            replaceNode_varies hfound (Node.varies_table origin hf)).ite_none_left _
        | series earlier last =>
          exact ((ih last).map fun _ hf =>
            replaceNode_varies hfound (Node.varies_last earlier hf)).ite_none_left _

theorem assignMembers?_cons (path : List String) (literal : Literal)
    (members : List (List String × Literal)) (entries : List (String × Node)) :
    assignMembers? ((path, literal) :: members) entries = literal.value?.bind fun value =>
      (assign path value entries).bind (assignMembers? members) := by
  rw [assignMembers?]
  rfl

theorem assignMembers?_keeps (members : List (List String × Literal))
    {entries : String → List (String × Node)} (h : Within (Under Node.Varies) entries) :
    Uniformly (Within (Under Node.Varies)) fun v => assignMembers? members (entries v) := by
  induction members generalizing entries with
  | nil =>
    simp only [assignMembers?]
    exact uniformly_some h
  | cons member members ih =>
    obtain ⟨path, literal⟩ := member
    simp only [assignMembers?_cons]
    exact uniformly_bind _ fun value => (assign_keeps value path h).bind fun _ hf => ih hf

/-- One assignment among others. -/
theorem assignMembers?_bears {literal : String → Literal}
    (hliteral : Uniformly Toml.Varies fun v => (literal v).value?)
    (before : List (List String × Literal)) (path : List String)
    (after : List (List String × Literal)) (entries : List (String × Node)) :
    Uniformly (Within (Under Node.Varies)) fun v =>
      assignMembers? (before ++ (path, literal v) :: after) entries := by
  induction before generalizing entries with
  | nil =>
    simp only [List.nil_append, assignMembers?_cons]
    exact hliteral.bind fun value hvalue => (assign_bears hvalue path entries).bind fun _ hf =>
      assignMembers?_keeps after hf
  | cons member before ih =>
    obtain ⟨path', other⟩ := member
    simp only [List.cons_append, assignMembers?_cons]
    exact uniformly_bind _ fun value => uniformly_bind _ fun entries => ih entries

/-! ## Values -/

theorem entriesValue_eq_map (entries : List (String × Node)) :
    entriesValue entries = entries.map fun entry => (entry.1, entry.2.value) := by
  induction entries with
  | nil => rfl
  | cons entry entries ih =>
    obtain ⟨key, node⟩ := entry
    rw [entriesValue, ih]
    rfl

theorem varies_table {entries : String → Entries} (h : Within (Under Varies) entries) :
    Varies fun v => .table (entries v) := by
  obtain ⟨before, _, after, key, value, hvalue⟩ := h
  exact .entry before key value after hvalue

theorem Node.Varies.value {node : String → Node} (h : Node.Varies node) :
    Toml.Varies fun v => (node v).value := by
  induction h with
  | leaf value hvalue => exact hvalue
  | table origin before key node after _ ih =>
    simp only [Node.value, entriesValue_eq_map, List.map_append, List.map_cons]
    exact .entry _ key _ _ ih
  | earlier before value after last hvalue =>
    simp only [Node.value, List.append_assoc, List.cons_append]
    exact .item before value _ hvalue
  | last earlier before key node after _ ih =>
    simp only [Node.value, entriesValue_eq_map, List.map_append, List.map_cons]
    exact .item earlier _ [] (.entry _ key _ _ ih)

theorem entriesValue_varies {entries : String → List (String × Node)}
    (h : Within (Under Node.Varies) entries) :
    Within (Under Varies) fun v => entriesValue (entries v) := by
  simp only [entriesValue_eq_map]
  exact h.map fun _ ⟨key, node, hnode⟩ => ⟨key, _, hnode.value⟩

theorem itemValues?_cons (item : Literal) (items : List Literal) :
    itemValues? (item :: items) =
      item.value?.bind fun value => (itemValues? items).map (value :: ·) := by
  rw [itemValues?]
  cases item.value? with
  | none => rfl
  | some value =>
    cases itemValues? items with
    | none => rfl
    | some values => rfl

theorem itemValues?_varies {item : String → Literal}
    (hitem : Uniformly Toml.Varies fun v => (item v).value?) (before after : List Literal) :
    Uniformly (Within Toml.Varies) fun v => itemValues? (before ++ item v :: after) := by
  induction before with
  | nil =>
    simp only [List.nil_append, itemValues?_cons]
    exact hitem.bind fun value hvalue => uniformly_map _ fun values => ⟨[], value, values, hvalue⟩
  | cons other before ih =>
    simp only [List.cons_append, itemValues?_cons]
    exact uniformly_bind _ fun value => ih.map fun _ hf => hf.cons value

theorem Literal.Varies.value? {literal : String → Literal} (h : Literal.Varies literal) :
    Uniformly Toml.Varies fun v => (literal v).value? := by
  induction h with
  | string =>
    simp only [Literal.value?]
    exact uniformly_some .string
  | item before item after _ ih =>
    simp only [Literal.value?]
    refine (itemValues?_varies ih before after).map fun _ hf => ?_
    obtain ⟨before, value, after, hvalue⟩ := hf
    exact .item before value after hvalue
  | member before path value after _ ih =>
    simp only [Literal.value?]
    exact (assignMembers?_bears ih before path after []).map fun _ hf =>
      varies_table (entriesValue_varies hf)

theorem assignMembers?_varies {members : String → List (List String × Literal)}
    (h : Within (Under Literal.Varies) members) (entries : List (String × Node)) :
    Uniformly (Within (Under Node.Varies)) fun v => assignMembers? (members v) entries := by
  obtain ⟨before, _, after, path, literal, hliteral⟩ := h
  exact assignMembers?_bears hliteral.value? before path after entries

/-! ## Sections -/

section

variable {isItem : Bool}

/-- Filling a table leaves alone what varies if that leaves it alone with which it is filled. -/
theorem fillSection_keeps {fill : List (String × Node) → Option (List (String × Node))}
    (hfill : ∀ entries, Within (Under Node.Varies) entries →
      Uniformly (Within (Under Node.Varies)) fun v => fill (entries v))
    (path : List String) {entries : String → List (String × Node)}
    (h : Within (Under Node.Varies) entries) :
    Uniformly (Within (Under Node.Varies)) fun v => fillSection isItem fill path (entries v) := by
  induction path generalizing entries with
  | nil => exact uniformly_none
  | cons key path ih =>
    cases path with
    | nil =>
      simp only [fillSection]
      obtain ⟨found, hfound, hreplace⟩ | ⟨node, hnode, hfound, hreplace⟩ := lookup_varies h key
      · simp only [hfound]
        cases found with
        | none => exact uniformly_map _ fun inner => h.append _
        | some node =>
          cases node with
          | leaf other => exact uniformly_none
          | table origin inner =>
            exact (uniformly_map _ fun inner => hreplace (.table .header inner)).ite_none_right _
          | series earlier last =>
            exact (uniformly_map _ fun inner => hreplace (.series _ inner)).ite_none_right _
      · simp only [hfound]
        cases hnode with
        | leaf value hvalue => exact uniformly_none
        | table origin before k node after hnode =>
          have hinner := hfill _ (.intro before _ after (.intro k node hnode))
          exact (hinner.map fun _ hf => hreplace _ (Node.varies_table .header hf)).ite_none_right _
        | earlier before item after last hitem =>
          refine Uniformly.ite_none_right
            (uniformly_map _ fun inner => hreplace _ (Node.varies_earlier ?_ inner)) _
          exact (Within.intro before item after hitem).append _
        | last earlier before k node after hnode =>
          refine Uniformly.ite_none_right
            (uniformly_map _ fun inner => hreplace _ (Node.varies_earlier ?_ inner)) _
          refine .concat earlier (varies_table (entriesValue_varies ?_))
          exact .intro before _ after (.intro k node hnode)
    | cons next path =>
      simp only [fillSection]
      obtain ⟨found, hfound, hreplace⟩ | ⟨node, hnode, hfound, hreplace⟩ := lookup_varies h key
      · simp only [hfound]
        cases found with
        | none => exact uniformly_map _ fun inner => h.append _
        | some node =>
          cases node with
          | leaf other => exact uniformly_none
          | table origin inner => exact uniformly_map _ fun inner => hreplace (.table origin inner)
          | series earlier last => exact uniformly_map _ fun last => hreplace (.series earlier last)
      · simp only [hfound]
        cases hnode with
        | leaf value hvalue => exact uniformly_none
        | table origin before k node after hnode =>
          have hinner := ih (.intro before _ after (.intro k node hnode))
          exact hinner.map fun _ hf => hreplace _ (Node.varies_table origin hf)
        | earlier before item after last hitem =>
          exact uniformly_map _ fun last => hreplace _ (.earlier before item after last hitem)
        | last earlier before k node after hnode =>
          have hinner := ih (.intro before _ after (.intro k node hnode))
          exact hinner.map fun _ hf => hreplace _ (Node.varies_last earlier hf)

/-- A table varies in the entries as that does with which it is filled. -/
theorem fillSection_bears {fill : String → List (String × Node) → Option (List (String × Node))}
    (hfill : ∀ entries, Uniformly (Within (Under Node.Varies)) fun v => fill v entries)
    (path : List String) (entries : List (String × Node)) :
    Uniformly (Within (Under Node.Varies)) fun v => fillSection isItem (fill v) path entries := by
  induction path generalizing entries with
  | nil => exact uniformly_none
  | cons key path ih =>
    cases path with
    | nil =>
      simp only [fillSection]
      cases hfound : entries.lookup key with
      | none =>
        refine (hfill []).map fun _ hf => .concat_under ?_
        cases isItem with
        | true => exact Node.varies_last [] hf
        | false => exact Node.varies_table .header hf
      | some node =>
        cases node with
        | leaf other => exact uniformly_none
        | table origin inner =>
          exact ((hfill inner).map fun _ hf =>
            replaceNode_varies hfound (Node.varies_table .header hf)).ite_none_right _
        | series earlier last =>
          exact ((hfill []).map fun _ hf =>
            replaceNode_varies hfound (Node.varies_last _ hf)).ite_none_right _
    | cons next path =>
      simp only [fillSection]
      cases hfound : entries.lookup key with
      | none => exact (ih []).map fun _ hf => .concat_under (Node.varies_table .implied hf)
      | some node =>
        cases node with
        | leaf other => exact uniformly_none
        | table origin inner =>
          exact (ih inner).map fun _ hf =>
            replaceNode_varies hfound (Node.varies_table origin hf)
        | series earlier last =>
          exact (ih last).map fun _ hf =>
            replaceNode_varies hfound (Node.varies_last earlier hf)

end

/-- The entries after a section. -/
def fillOne (root : List (String × Node)) (s : Section) : Option (List (String × Node)) :=
  fillSection s.isItem (assignMembers? s.assignments) s.path root

theorem fillOne_bears {one : String → Section} (h : Section.Varies one)
    (root : List (String × Node)) :
    Uniformly (Within (Under Node.Varies)) fun v => fillOne root (one v) := by
  obtain ⟨path, isItem, assignments, hassignments⟩ := h
  exact fillSection_bears (assignMembers?_varies hassignments) path root

theorem foldlM_fillOne_keeps (sections : List Section) {root : String → List (String × Node)}
    (h : Within (Under Node.Varies) root) :
    Uniformly (Within (Under Node.Varies)) fun v => sections.foldlM fillOne (root v) := by
  induction sections generalizing root with
  | nil => exact uniformly_some h
  | cons s sections ih =>
    simp only [List.foldlM_cons]
    have hs : Uniformly (Within (Under Node.Varies)) fun v => fillOne (root v) s :=
      fillSection_keeps (fun _ => assignMembers?_keeps s.assignments) s.path h
    exact hs.bind fun _ hf => ih hf

theorem foldlM_fillOne_bears {sections : String → List Section}
    (h : Within Section.Varies sections) (root : List (String × Node)) :
    Uniformly (Within (Under Node.Varies)) fun v => (sections v).foldlM fillOne root := by
  obtain ⟨before, one, after, hone⟩ := h
  simp only [List.foldlM_append, List.foldlM_cons]
  exact uniformly_bind _ fun root => (fillOne_bears hone root).bind fun _ hf =>
    foldlM_fillOne_keeps after hf

/-- What varies in the statements is an assignment before the first header or one of a section. -/
theorem sections_varies {statements : String → List Statement}
    (h : Within Statement.Varies statements) :
    (∃ assignments later, Within (Under Literal.Varies) assignments ∧
      ∀ v, sections (statements v) = (assignments v, later)) ∨
    ∃ assignments later, Within Section.Varies later ∧
      ∀ v, sections (statements v) = (assignments, later v) := by
  obtain ⟨before, _, after, path, value, hvalue⟩ := h
  induction before with
  | nil => exact .inl ⟨_, _, ⟨[], _, _, path, value, hvalue⟩, fun v => rfl⟩
  | cons statement before ih =>
    simp only [List.cons_append]
    obtain ⟨assignments, later, hvaries, hsections⟩ | ⟨assignments, later, hvaries, hsections⟩ := ih
    · cases statement with
      | assign path' literal =>
        refine .inl ⟨_, later, hvaries.cons (path', literal), fun v => ?_⟩
        rw [sections, hsections v]
      | header path' isItem =>
        refine .inr ⟨[], _, ⟨[], _, later, path', isItem, assignments, hvaries⟩, fun v => ?_⟩
        rw [sections, hsections v, List.nil_append]
    · cases statement with
      | assign path' literal =>
        refine .inr ⟨(path', literal) :: assignments, later, hvaries, fun v => ?_⟩
        rw [sections, hsections v]
      | header path' isItem =>
        refine .inr ⟨[], _, hvaries.cons ⟨path', isItem, assignments⟩, fun v => ?_⟩
        rw [sections, hsections v]

theorem ofStatements?_eq (statements : List Statement) :
    ofStatements? statements = (assignMembers? (sections statements).1 []).bind fun root =>
      ((sections statements).2.foldlM fillOne root).map entriesValue := by
  simp only [Option.map_eq_bind]
  rfl

/-- The entries that varying statements make are there for every text or for none, and vary. -/
theorem ofStatements?_varies {statements : String → List Statement}
    (h : Within Statement.Varies statements) :
    Uniformly (Within (Under Varies)) fun v => ofStatements? (statements v) := by
  simp only [ofStatements?_eq]
  obtain ⟨assignments, later, hvaries, hsections⟩ | ⟨assignments, later, hvaries, hsections⟩ :=
    sections_varies h
  · simp only [hsections]
    exact (assignMembers?_varies hvaries []).bind fun _ hroot =>
      (foldlM_fillOne_keeps later hroot).map fun _ hf => entriesValue_varies hf
  · simp only [hsections]
    exact uniformly_bind _ fun root => (foldlM_fillOne_bears hvaries root).map fun _ hf =>
      entriesValue_varies hf

end IdentityProvider.Toml
