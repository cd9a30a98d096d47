import EntityQuery.Proofs.Composition
import Mathlib.Data.List.Induction

/-!
# Names of paths and orderings

A path is a nest of nodes, the last step outermost. Its name is read off from the last step inwards
and written from the first one outwards, after the alias of the table. A path that goes over
anything but stored properties has no name. What an ordering goes by is a path or a stored property,
and its text has one entry for each item.

## Main definitions

* `Expression.chain`: the nodes that a path goes over
* `pathName`: the name of a path after the alias of its table
* `OrderName`: the nodes that an ordering can go by, with their names
* `OrderEntry`: the entry of an item

## Main results

* `stepNames_navigation`, `exists_navigation`: the paths that have names, and what these are
* `stepNames_ne_ok_of_chain`: a path over another node has none
* `orderTarget_eq_ok`, `orderText_eq_ok`: which orderings have a text, and which one
* `Request.compile_eq_ok_iff_unordered`: an ordering changes nothing else of a response
* `orderText_names_paths`: paths are called the same in filters and in orderings
-/

namespace EntityQuery

open Expression (navigation)

/-! ## Paths -/

/-- The nodes that a path goes over, in order. -/
def Expression.chain : Expression → List Expression
  | .member path step => path.chain ++ [step]
  | node => [node]

section Navigation

variable {root : Property} {steps : List Property} {path : Expression} {names : List String}

theorem navigation_concat (root : Property) (steps : List Property) (step : Property) :
    navigation root (steps ++ [step]) = .member (navigation root steps) (.property step) := by
  rw [navigation, List.foldl_append]
  rfl

/-- A path of one or more steps is a node of its last step. -/
theorem exists_navigation_eq_member (root first : Property) (more : List Property) :
    ∃ path step, navigation root (first :: more) = .member path step := by
  rw [← List.dropLast_append_getLast (List.cons_ne_nil first more), navigation_concat]
  exact ⟨_, _, rfl⟩

theorem chain_navigation (root : Property) (steps : List Property) :
    (navigation root steps).chain = (root :: steps).map .property := by
  induction steps using List.reverseRecOn with
  | nil => rfl
  | append_singleton steps step ih =>
    rw [navigation_concat, Expression.chain, ih, ← List.cons_append, List.map_append]
    rfl

/-- The steps of a path over properties are named if all of them are stored. -/
theorem stepNames_navigation :
    stepNames (navigation root steps) = .ok names ↔
      (∀ p ∈ root :: steps, p.isVirtual = false) ∧
        (root :: steps).map Property.queryName = names := by
  -- The last step is the outermost node, so the induction takes steps away from the end.
  induction steps using List.reverseRecOn generalizing names with
  | nil =>
    rw [navigation, List.foldl_nil, stepNames]
    · simp [bind_eq_ok, stepName, columnName_eq_ok, pure, Except.pure, and_assoc]
    · intro _ _ member
      cases member
  | append_singleton steps step ih =>
    rw [navigation_concat, stepNames, ← List.cons_append, List.forall_mem_append, List.map_append,
      List.forall_mem_singleton]
    simp only [bind_eq_ok, ih, stepName, columnName_eq_ok, pure, Except.pure, Except.ok.injEq]
    constructor
    · rintro ⟨_, ⟨stored, rfl⟩, _, ⟨front, rfl⟩, rfl⟩
      exact ⟨⟨front, stored⟩, rfl⟩
    · rintro ⟨⟨front, stored⟩, rfl⟩
      exact ⟨_, ⟨stored, rfl⟩, _, ⟨front, rfl⟩, rfl⟩

/-- A path whose steps are named is one over properties. -/
theorem exists_navigation (h : stepNames path = .ok names) :
    ∃ root steps, path = navigation root steps := by
  refine stepNames_induct (motive := fun path _ => ∃ root steps, path = navigation root steps)
    ?first ?further h
  case first =>
    intro p name _
    exact ⟨p, [], rfl⟩
  case further =>
    rintro _ _ p name - - ⟨root, steps, rfl⟩
    exact ⟨root, steps ++ [p], (navigation_concat root steps p).symm⟩

/-- A path over a node that is no property has no name. -/
theorem stepNames_ne_ok_of_chain {node : Expression} (on_path : node ∈ path.chain)
    (other : ∀ p, node ≠ .property p) : stepNames path ≠ .ok names := by
  intro named
  obtain ⟨root, steps, rfl⟩ := exists_navigation named
  rw [chain_navigation] at on_path
  obtain ⟨p, -, rfl⟩ := List.mem_map.1 on_path
  exact other p rfl

theorem stepName_eq_error {node : Expression} {e : QueryError} (h : stepName node = .error e) :
    ∃ fault, e = .mapping fault := by
  cases node with
  | property p =>
    rw [stepName, columnName] at h
    split at h
    · exact ⟨_, (Except.error.inj h).symm⟩
    · cases h
  | _ => exact ⟨_, (Except.error.inj h).symm⟩

/-- Only the mapping of a path can be at fault. -/
theorem stepNames_eq_error {e : QueryError} (h : stepNames path = .error e) :
    ∃ fault, e = .mapping fault := by
  fun_induction stepNames path with
  | case1 path step ih =>
    rcases bind_eq_error.1 h with last_eq | ⟨last, -, h⟩
    · exact stepName_eq_error last_eq
    · rcases bind_eq_error.1 h with front_eq | ⟨names, -, h⟩
      · exact ih front_eq
      · cases h
  | case2 step _ =>
    rcases bind_eq_error.1 h with name_eq | ⟨name, -, h⟩
    · exact stepName_eq_error name_eq
    · cases h

end Navigation

/-! ## Names -/

/-- The name of a path after the alias of its table. -/
def pathName (table : String) (path : List Property) : String :=
  String.intercalate "." (table :: path.map Property.queryName)

section Names

variable {scope : Scope} {root first : Property} {more : List Property} {name text : String}

theorem pathText_navigation :
    scope.pathText (navigation root (first :: more)) = .ok text ↔ ∃ table,
      scope.alias? = some table ∧ (∀ p ∈ root :: first :: more, p.isVirtual = false) ∧
        pathName table (root :: first :: more) = text := by
  rw [Scope.pathText_eq_ok]
  simp only [stepNames_navigation, and_assoc, pathName, List.map_cons]
  constructor
  · rintro ⟨table, _, alias_eq, stored, rfl, rfl⟩
    exact ⟨table, alias_eq, stored, String.intercalate_cons_cons ..⟩
  · rintro ⟨table, alias_eq, stored, rfl⟩
    exact ⟨table, _, alias_eq, stored, rfl, (String.intercalate_cons_cons ..).symm⟩

/-- A path that cannot be named has a mapping at fault. -/
theorem pathText_eq_error (scope : Scope) {path : Expression}
    (unnamed : ∀ names, stepNames path ≠ .ok names) :
    ∃ fault, scope.pathText path = .error (.mapping fault) := by
  rw [Scope.pathText]
  split
  · exact ⟨_, rfl⟩
  · rcases names_eq : stepNames path with error | names
    · obtain ⟨fault, rfl⟩ := stepNames_eq_error names_eq
      exact ⟨fault, rfl⟩
    · exact absurd names_eq (unnamed names)

/-- The nodes that an ordering can go by: stored properties, and paths over them where there is an
alias. -/
inductive OrderName (scope : Scope) : Expression → String → Prop
  | property {p : Property} (stored : p.isVirtual = false) :
      OrderName scope (.property p) (qualify scope.alias? p.queryName)
  | path {root first : Property} {more : List Property} {table : String}
      (alias_eq : scope.alias? = some table)
      (stored : ∀ p ∈ root :: first :: more, p.isVirtual = false) :
      OrderName scope (navigation root (first :: more)) (pathName table (root :: first :: more))

/-- A path has the same text in a filter as in an ordering, and binds nothing. -/
theorem over_filterText_path (path step : Expression) (ledger : Ledger) :
    (filterText scope (.member path step)).over ledger =
      (orderTarget scope (.member path step), ledger) := by
  rw [filterText, Compile.over_liftM]
  rfl

theorem orderTarget_eq_ok {e : Expression} :
    orderTarget scope e = .ok name ↔ OrderName scope e name := by
  constructor
  · intro h
    cases e with
    | property p =>
      obtain ⟨stored, rfl⟩ := Scope.columnText_eq_ok.1 h
      exact .property stored
    | member path step =>
      have named : scope.pathText (.member path step) = .ok name := h
      obtain ⟨_, names, -, steps_eq, -⟩ := Scope.pathText_eq_ok.1 named
      obtain ⟨root, _ | ⟨first, more⟩, path_eq⟩ := exists_navigation steps_eq
      · cases path_eq
      · rw [path_eq] at named ⊢
        obtain ⟨table, alias_eq, stored, rfl⟩ := pathText_navigation.1 named
        exact .path alias_eq stored
    | _ => cases h
  · rintro (⟨stored⟩ | @⟨root, first, more, table, alias_eq, stored⟩)
    · exact Scope.columnText_eq_ok.2 ⟨stored, rfl⟩
    · have named := pathText_navigation.2 ⟨table, alias_eq, stored, rfl⟩
      obtain ⟨path, step, path_eq⟩ := exists_navigation_eq_member root first more
      rw [path_eq] at named ⊢
      exact named

end Names

/-! ## Orderings -/

/-- The entry of an item is its name, with a word behind it where the order is a descending one. -/
inductive OrderEntry (scope : Scope) : OrderItem → String → Prop
  | asc {e : Expression} {name : String} (named : OrderName scope e name) :
      OrderEntry scope ⟨e, .asc⟩ name
  | desc {e : Expression} {name : String} (named : OrderName scope e name) :
      OrderEntry scope ⟨e, .desc⟩ (name ++ " DESC")

/-- A list is related to another one if each of its elements is related to something. -/
theorem exists_forall₂ {α β : Type} {R : α → β → Prop} {as : List α} :
    (∃ bs, List.Forall₂ R as bs) ↔ ∀ a ∈ as, ∃ b, R a b := by
  induction as with
  | nil => simp
  | cons a as ih =>
    rw [List.forall_mem_cons, ← ih]
    simp only [List.forall₂_cons_left_iff]
    constructor
    · rintro ⟨_, b, bs, hb, hbs, rfl⟩
      exact ⟨⟨b, hb⟩, bs, hbs⟩
    · rintro ⟨⟨b, hb⟩, bs, hbs⟩
      exact ⟨_, b, bs, hb, hbs, rfl⟩

section Orderings

variable {scope : Scope} {items : List OrderItem} {text : String}

theorem orderItemText_eq_ok {item : OrderItem} {entry : String} :
    orderItemText scope item = .ok entry ↔ OrderEntry scope item entry := by
  obtain ⟨e, order⟩ := item
  simp only [orderItemText, map_eq_ok, orderTarget_eq_ok]
  constructor
  · rintro ⟨name, named, rfl⟩
    cases order with
    | asc => exact .asc named
    | desc => exact .desc named
  · rintro (⟨named⟩ | ⟨named⟩)
    · exact ⟨_, named, rfl⟩
    · exact ⟨_, named, rfl⟩

theorem orderText_eq_ok :
    orderText scope items = .ok text ↔ ∃ entries, List.Forall₂ (OrderEntry scope) items entries ∧
      String.intercalate " , " entries = text := by
  simp only [orderText, map_eq_ok, mapM_eq_ok, orderItemText_eq_ok]
  rfl

/-- An ordering by one node is the text of that node. -/
theorem orderText_singleton (scope : Scope) (e : Expression) :
    orderText scope [⟨e, .asc⟩] = orderTarget scope e := by
  rw [orderText, List.mapM_cons, List.mapM_nil, orderItemText]
  rcases orderTarget scope e with error | name
  · rfl
  · exact congrArg Except.ok (String.intercalate_singleton ..)

theorem exists_orderEntry {item : OrderItem} :
    (∃ entry, OrderEntry scope item entry) ↔ ∃ name, OrderName scope item.expression name := by
  constructor
  · rintro ⟨_, named | named⟩
    · exact ⟨_, named⟩
    · exact ⟨_, named⟩
  · obtain ⟨e, order⟩ := item
    rintro ⟨name, named⟩
    cases order with
    | asc => exact ⟨_, .asc named⟩
    | desc => exact ⟨_, .desc named⟩

/-- An ordering has a text if each of its items goes by something that has a name. -/
theorem exists_orderText :
    (∃ text, orderText scope items = .ok text) ↔
      ∀ item ∈ items, ∃ name, OrderName scope item.expression name := by
  simp only [orderText_eq_ok, ← exists_orderEntry, ← exists_forall₂]
  constructor
  · rintro ⟨_, entries, listed, -⟩
    exact ⟨entries, listed⟩
  · rintro ⟨entries, listed⟩
    exact ⟨_, entries, listed, rfl⟩

end Orderings

/-- A request compiles with an ordering if it does without one and the ordering has a text. Nothing
else of the response depends on the ordering. -/
theorem Request.compile_eq_ok_iff_unordered {request : Request} {settings : Settings}
    {alias? : Option String} {response : Response} :
    request.compile settings alias? = .ok response ↔
      { request with orderBy := [] }.compile settings alias? =
          .ok { response with orderBy? := none } ∧
        orderText? (request.scope settings alias?) request.orderBy = .ok response.orderBy? := by
  obtain ⟨select?, keys?, filter?, orderBy?, parameters⟩ := response
  simp only [compile_eq_ok, Response.mk.injEq]
  constructor
  · rintro ⟨_, ledger, _, after, _, keys_eq, filter_eq, order_eq, rfl, rfl, rfl, rfl, rfl⟩
    exact ⟨⟨_, ledger, _, after, none, keys_eq, filter_eq, rfl, rfl, rfl, rfl, rfl, rfl⟩, order_eq⟩
  · rintro ⟨⟨_, ledger, _, after, _, keys_eq, filter_eq, -, rfl, rfl, rfl, -, rfl⟩, order_eq⟩
    exact ⟨_, ledger, _, after, _, keys_eq, filter_eq, order_eq, rfl, rfl, rfl, rfl, rfl⟩

/-! ## Paths in filters and in orderings -/

/-- **Paths are called the same in filters and in orderings.** A path from a property over one or
more further ones gives in a filter, over any ledger and without binding a value, what it gives as
an entry of an ordering: the alias and the query names of its properties in order, or a failure
where there is no alias or a property is not stored. A path that goes over any other node fails in
both. An ordering has a text if each of its items goes by a stored property or by such a path, and
then the text has one entry for each item, in order. It takes no part in the rest of a request, the
values of its placeholders included. -/
theorem orderText_names_paths (scope : Scope) :
    (∀ root first more,
      (∀ ledger, (filterText scope (navigation root (first :: more))).over ledger =
        (orderText scope [⟨navigation root (first :: more), .asc⟩], ledger)) ∧
      ∀ text, orderText scope [⟨navigation root (first :: more), .asc⟩] = .ok text ↔ ∃ table,
        scope.alias? = some table ∧ (∀ p ∈ root :: first :: more, p.isVirtual = false) ∧
          pathName table (root :: first :: more) = text) ∧
    (∀ path step, ∀ node ∈ (Expression.member path step).chain, (∀ p, node ≠ .property p) →
      ∃ fault, (∀ ledger, (filterText scope (.member path step)).over ledger =
          (.error (.mapping fault), ledger)) ∧
        orderText scope [⟨.member path step, .asc⟩] = .error (.mapping fault)) ∧
    (∀ items,
      ((∃ text, orderText scope items = .ok text) ↔
        ∀ item ∈ items, ∃ name, OrderName scope item.expression name) ∧
      ∀ text, orderText scope items = .ok text ↔ ∃ entries,
        List.Forall₂ (OrderEntry scope) items entries ∧ String.intercalate " , " entries = text) ∧
    ∀ (request : Request) settings alias? response,
      request.compile settings alias? = .ok response ↔
        { request with orderBy := [] }.compile settings alias? =
            .ok { response with orderBy? := none } ∧
          Request.orderText? (request.scope settings alias?) request.orderBy =
            .ok response.orderBy? := by
  refine ⟨?paths, ?others, ?listed, fun _ _ _ _ => Request.compile_eq_ok_iff_unordered⟩
  case paths =>
    intro root first more
    obtain ⟨path, step, path_eq⟩ := exists_navigation_eq_member root first more
    have target_eq : orderTarget scope (navigation root (first :: more)) =
        scope.pathText (navigation root (first :: more)) := by
      rw [path_eq]
      rfl
    rw [orderText_singleton, target_eq]
    refine ⟨?_, fun text => pathText_navigation⟩
    intro ledger
    rw [path_eq]
    exact over_filterText_path path step ledger
  case others =>
    intro path step node on_path other
    obtain ⟨fault, failed⟩ :=
      pathText_eq_error scope fun names => stepNames_ne_ok_of_chain on_path other
    refine ⟨fault, ?_, ?_⟩
    · intro ledger
      rw [over_filterText_path]
      exact congrArg (·, ledger) failed
    · rw [orderText_singleton]
      exact failed
  case listed =>
    intro items
    exact ⟨exists_orderText, fun text => orderText_eq_ok⟩

/-- A path that starts at a literal. -/
def literalPath : Expression :=
  .member (.member (.literal "1" .int32) (.property ⟨"customer", .simple .string, none, []⟩))
    (.property ⟨"Name", .simple .string, none, []⟩)

/-- It fails although both of its steps are stored properties. -/
theorem orderText_names_paths_of_literalPath :
    ∃ fault, (filterText ⟨some "t", {}⟩ literalPath).over {} = (.error (.mapping fault), {}) ∧
      orderText ⟨some "t", {}⟩ [⟨literalPath, .asc⟩] = .error (.mapping fault) := by
  obtain ⟨-, others, -⟩ := orderText_names_paths ⟨some "t", {}⟩
  have on_path : .literal "1" .int32 ∈ literalPath.chain := by
    simp [literalPath, Expression.chain]
  obtain ⟨fault, filtered, ordered⟩ := others _ _ _ on_path nofun
  exact ⟨fault, filtered {}, ordered⟩

end EntityQuery
