import EntityQuery.Proofs.Keys
import EntityQuery.Proofs.Shifting
import EntityQuery.Request

/-!
# Requests and their parts

A request compiles if its key, its filter and its ordering do, each by itself. Key and filter share
one ledger, on which the filter only comes later: it binds the values that it binds alone, behind
those of the key. An ordering and a projection bind nothing.

## Main definitions

* `Request.scope`: the scope in which all parts of a request are compiled
* `Request.PartsCompile`: every part compiles by itself
* `Response.ComposedOf`, `Response.ShowsValues`: what a response has from its parts, and its
  placeholders

## Main results

* `Request.compile_eq_ok`: where a request compiles, and to what
* `filterText_over_other`: a filter behind a key binds what it binds alone
* `marks_of_keyYields`: the marks of the condition of a key
* `Request.compile_composes`: a request is the composition of its parts
-/

namespace EntityQuery

/-! ## Runs of the parts -/

theorem Ledger.run_eq_ok {α : Type} {ledger after : Ledger} {computation : Compile α} {a : α} :
    ledger.run computation = (.ok a, after) ↔ computation.over ledger = (.ok a, after) := by
  rw [Ledger.run]
  rcases computation.over ledger with ⟨_ | _, _⟩ <;> simp

theorem compileKey_eq_ok {scope : Scope} {predicates : List KeyPredicate}
    {keys? : Option Fragment} :
    compileKey scope predicates = .ok keys? ↔ ∃ text? after,
      (keyCondition? scope predicates).over {} = (.ok text?, after) ∧
        text?.map (⟨·, after.registry⟩) = keys? := by
  simp only [compileKey, ← Ledger.run_eq_ok, Ledger.addKey]
  rcases Ledger.run {} (keyCondition? scope predicates) with ⟨_ | _, _⟩ <;> simp

theorem compileFilter_eq_ok {scope : Scope} {e : Expression} {fragment : Fragment} :
    compileFilter scope e = .ok fragment ↔ ∃ text after,
      (filterText scope e).over {} = (.ok text, after) ∧ ⟨text, after.registry⟩ = fragment := by
  simp only [compileFilter, ← Ledger.run_eq_ok, Ledger.addFilter]
  rcases Ledger.run {} (filterText scope e) with ⟨_ | _, _⟩ <;> simp

/-- Compiles a filter that may be missing over a ledger. -/
def Ledger.addFilter? (ledger : Ledger) (scope : Scope) :
    Option Expression → Except QueryError (Option String × Ledger)
  | none => .ok (none, ledger)
  | some e => (ledger.addFilter scope e).1.map fun text =>
      (some text, (ledger.addFilter scope e).2)

theorem Ledger.addFilter?_some_eq_ok {ledger after : Ledger} {scope : Scope} {e : Expression}
    {text? : Option String} :
    ledger.addFilter? scope (some e) = .ok (text?, after) ↔
      ∃ text, (filterText scope e).over ledger = (.ok text, after) ∧ some text = text? := by
  simp only [addFilter?, addFilter, ← Ledger.run_eq_ok, map_eq_ok, Prod.mk.injEq]
  rcases ledger.run (filterText scope e) with ⟨_ | _, _⟩ <;> simp [and_comm]

/-- The scope in which the parts of a request are compiled. An alias given from outside takes the
place of the request's own. -/
def Request.scope (request : Request) (settings : Settings) (alias? : Option String) : Scope :=
  ⟨alias?.or request.alias?, settings⟩

/-- A request compiles where its key does over an empty ledger, its filter over the ledger that the
key leaves, and its ordering. -/
theorem Request.compile_eq_ok {request : Request} {settings : Settings} {alias? : Option String}
    {response : Response} :
    request.compile settings alias? = .ok response ↔ ∃ keys? ledger filter? after orderBy?,
      (keyCondition? (request.scope settings alias?) request.keys).over {} = (.ok keys?, ledger) ∧
      ledger.addFilter? (request.scope settings alias?) request.filter? = .ok (filter?, after) ∧
      orderText? (request.scope settings alias?) request.orderBy = .ok orderBy? ∧
      ⟨(request.scope settings alias?).alias?.map (selectText · request.select), keys?,
        filter?, orderBy?, after.registry⟩ = response := by
  have steps : request.compile settings alias? = do
      let key := ({} : Ledger).addKey (request.scope settings alias?) request.keys
      let keys? ← key.1
      let filtered ← key.2.addFilter? (request.scope settings alias?) request.filter?
      let orderBy? ← orderText? (request.scope settings alias?) request.orderBy
      return ⟨(request.scope settings alias?).alias?.map (selectText · request.select), keys?,
        filtered.1, orderBy?, filtered.2.registry⟩ := by
    obtain ⟨own?, filter?, keys, orderBy, select⟩ := request
    cases filter? <;> rfl
  simp only [steps, bind_eq_ok, pure, Except.pure, Except.ok.injEq, Prod.exists,
    ← Ledger.run_eq_ok, Ledger.addKey]
  rcases Ledger.run {} (keyCondition? (request.scope settings alias?) request.keys) with
    ⟨_ | _, _⟩ <;> simp

/-! ## Parts by themselves -/

/-- The values that a text binds; none where there is no text. -/
def boundBy (fragment? : Option Fragment) : List Value :=
  (fragment?.map fun fragment => fragment.parameters.entries.map Prod.snd).getD []

theorem values_entries (values : List Value) :
    (({} : Ledger).bindAll values).registry.entries.map Prod.snd = values := by
  rw [Ledger.entries_bindAll, List.nil_append]
  exact List.map_snd_zip (by simp)

section Parts

variable {scope : Scope}

/-- A key that compiles binds the values that it binds by itself. -/
theorem bound_of_keyCondition? {predicates : List KeyPredicate} {text? : Option String}
    {after : Ledger} (h : (keyCondition? scope predicates).over {} = (.ok text?, after)) :
    ∃ keys?, compileKey scope predicates = .ok keys? ∧ keys?.map (·.text) = text? ∧
      (keys? = none ↔ predicates = []) ∧ after = ({} : Ledger).bindAll (boundBy keys?) := by
  have alone := compileKey_eq_ok.2 ⟨_, _, h, rfl⟩
  obtain ⟨texts, values, yields, rfl, rfl⟩ := keyYields_of_keyCondition? h
  refine ⟨_, alone, ?_, ?_, congrArg _ ?_⟩
  · rw [Option.map_map]
    exact Option.map_id'
  · cases predicates <;> simp
  · cases predicates with
    | nil =>
      cases yields
      rfl
    | cons predicate predicates => exact (values_entries values).symm

/-- A filter that compiles over a ledger compiles over any other one, and binds the same values
there. -/
theorem filterText_over_other {e : Expression} {ledger after : Ledger} {text : String}
    (unmarked : ledger.substringCompared = false)
    (h : (filterText scope e).over ledger = (.ok text, after)) :
    ∃ values, after = ledger.bindAll values ∧
      ∀ other : Ledger, other.substringCompared = false →
        ∃ text, (filterText scope e).over other = (.ok text, other.bindAll values) := by
  obtain ⟨values, draft_eq, rfl⟩ :=
    (filterText_follows_of_unmarked scope e unmarked).draft_of_ok h
  refine ⟨values, by rw [Ledger.clearSubstring_of_unmarked unmarked], ?_⟩
  intro other other_unmarked
  -- Where a draft starts matters for its text only.
  have same : scope.Similar scope := ⟨rfl, rfl⟩
  have step := draftText_inStep (same.congruence ledger.nextIndex other.nextIndex) rfl false e
    fun _ _ => trivial
  have values_eq := step.values_eq 0
  have results := step.results 0
  rw [Nat.add_zero, Nat.add_zero, draft_eq] at values_eq results
  rcases other_eq : draftText scope false e other.nextIndex with ⟨_ | text', values'⟩
  case error =>
    rw [other_eq] at results
    cases results
  case ok =>
    rw [other_eq] at values_eq
    obtain rfl : values = values' := values_eq
    have over_eq := (filterText_follows_of_unmarked scope e other_unmarked).over_eq_of_ok other_eq
    rw [Ledger.clearSubstring_of_unmarked other_unmarked] at over_eq
    exact ⟨text', over_eq⟩

/-- A filter that may be missing compiles over a ledger where it compiles by itself. -/
theorem exists_addFilter?_iff (filter? : Option Expression) {ledger : Ledger}
    (unmarked : ledger.substringCompared = false) :
    (∃ text? after, ledger.addFilter? scope filter? = .ok (text?, after)) ↔
      ∀ e ∈ filter?, ∃ fragment, compileFilter scope e = .ok fragment := by
  cases filter? with
  | none => simp [Ledger.addFilter?]
  | some e =>
    simp only [Ledger.addFilter?_some_eq_ok, compileFilter_eq_ok, Option.mem_some_iff,
      forall_eq']
    constructor
    · rintro ⟨_, after, text, over_eq, rfl⟩
      obtain ⟨values, -, others⟩ := filterText_over_other unmarked over_eq
      obtain ⟨alone, alone_eq⟩ := others {} rfl
      exact ⟨_, alone, _, alone_eq, rfl⟩
    · rintro ⟨_, text, after, over_eq, rfl⟩
      obtain ⟨values, -, others⟩ := filterText_over_other rfl over_eq
      obtain ⟨behind, behind_eq⟩ := others ledger unmarked
      exact ⟨_, _, behind, behind_eq, rfl⟩

/-- Behind other values a filter binds the values that it binds by itself. -/
theorem bound_of_addFilter? {filter? : Option Expression} {ledger after : Ledger}
    {text? : Option String} (unmarked : ledger.substringCompared = false)
    (h : ledger.addFilter? scope filter? = .ok (text?, after)) :
    ∃ fragment?, filter?.mapM (compileFilter scope) = .ok fragment? ∧
      fragment?.isSome = text?.isSome ∧ after = ledger.bindAll (boundBy fragment?) := by
  cases filter? with
  | none =>
    obtain ⟨rfl, rfl⟩ := Prod.mk.inj (Except.ok.inj h)
    exact ⟨none, rfl, rfl, rfl⟩
  | some e =>
    obtain ⟨text, over_eq, rfl⟩ := Ledger.addFilter?_some_eq_ok.1 h
    obtain ⟨values, rfl, others⟩ := filterText_over_other unmarked over_eq
    obtain ⟨alone, alone_eq⟩ := others {} rfl
    have compiles := compileFilter_eq_ok.2 ⟨alone, _, alone_eq, rfl⟩
    refine ⟨some ⟨alone, (({} : Ledger).bindAll values).registry⟩, ?_, rfl, ?_⟩
    · rw [Option.mapM_some, compiles]
      rfl
    · exact congrArg _ (values_entries values).symm

end Parts

/-! ## Placeholders of the parts -/

section Placeholders

variable {scope : Scope}

/-- A property of a key is named by its stored name or by its query name. -/
theorem Scope.MarksPlaceholders.keyName_free (fits : scope.MarksPlaceholders) {p : Property}
    {target : String} (query_free : MarkFree p.queryName) (stored_free : MarkFree p.storedName)
    (h : scope.keyName p = .ok target) : MarkFree target := by
  obtain ⟨column, column_eq, rfl⟩ := map_eq_ok.1 h
  obtain ⟨-, rfl⟩ := columnName_eq_ok.1 column_eq
  apply fits.qualify_free
  split
  · exact stored_free
  · exact query_free

/-- The marks of the condition of a key property are those of the values it binds. -/
theorem marks_of_keyYields (fits : scope.MarksPlaceholders) {start : Nat}
    {entry : Property × String} {text : String} {values : List Value}
    (h : KeyYields scope start entry text values)
    (free : ∀ p ∈ entry.1.columns, MarkFree p.queryName ∧ MarkFree p.storedName) :
    ∃ shown, Marks text shown ∧ shown.Perm (List.range' start values.length) := by
  revert free
  refine KeyYields.induct (motive := fun start entry text values =>
    (∀ p ∈ entry.1.columns, MarkFree p.queryName ∧ MarkFree p.storedName) →
      ∃ shown, Marks text shown ∧ shown.Perm (List.range' start values.length))
    ?absent ?given ?composite h
  case absent =>
    intro start p literal target simple named _ free
    have target_free := fits.keyName_free (free p (mem_columns_self simple)).1
      (free p (mem_columns_self simple)).2 named
    exact ⟨[], .of_free (target_free.append (by decide)), .nil⟩
  case given =>
    intro start p literal target kind encoded simple named _ _ encodes free
    have target_free := fits.keyName_free (free p (mem_columns_self simple)).1
      (free p (mem_columns_self simple)).2 named
    have shown := marks_written fits encodes start
    exact ⟨_, shown.opened (target_free.append (by decide)), .refl _⟩
  case composite =>
    intro start p literal texts values _ conditions free
    obtain ⟨numbers, all_marks, perm⟩ := marks_of_inTurn conditions fun {_ part _ _} hm marks => by
      apply marks
      intro column hc
      exact free column (mem_columns_of_part (mem_parts_of_keyParts hm) hc)
    have conjunction := Marks.conjunction all_marks
    exact ⟨_, (conjunction.opened (by decide)).closed (by decide), perm⟩

theorem markFree_selectText {table : String} {fields : List String} (table_free : MarkFree table)
    (free : ∀ field ∈ fields, MarkFree field) : MarkFree (selectText table fields) := by
  unfold selectText
  split
  · exact table_free
  · apply MarkFree.intercalate (by decide)
    intro text hm
    obtain ⟨field, hf, rfl⟩ := List.mem_map.1 hm
    exact (table_free.append (by decide)).append (free field hf)

/-- A list is mapped without a failure if all of its elements are, and to their results. -/
theorem mapM_eq_ok {ε α β : Type} {f : α → Except ε β} {as : List α} {bs : List β} :
    as.mapM f = .ok bs ↔ List.Forall₂ (fun a b => f a = .ok b) as bs := by
  induction as generalizing bs with
  | nil => simp [pure, Except.pure]
  | cons a as ih =>
    simp only [List.mapM_cons, bind_eq_ok, ih, List.forall₂_cons_left_iff, pure, Except.pure,
      Except.ok.injEq]
    constructor
    · rintro ⟨b, first, bs, others, rfl⟩
      exact ⟨b, bs, first, others, rfl⟩
    · rintro ⟨b, bs, first, others, rfl⟩
      exact ⟨b, first, bs, others, rfl⟩

theorem exists_of_mem_forall₂ {α β : Type} {R : α → β → Prop} {as : List α} {bs : List β}
    (h : List.Forall₂ R as bs) {b : β} (hb : b ∈ bs) : ∃ a ∈ as, R a b := by
  induction h with
  | nil => cases hb
  | @cons a _ _ _ head _ ih =>
    rcases List.mem_cons.1 hb with rfl | hb
    · exact ⟨a, List.mem_cons_self, head⟩
    · obtain ⟨a', hm, related⟩ := ih hb
      exact ⟨a', List.mem_cons_of_mem a hm, related⟩

theorem Scope.MarksPlaceholders.orderTarget_free (fits : scope.MarksPlaceholders) {e : Expression}
    {target : String} (free : ∀ p ∈ e.properties, MarkFree p.queryName)
    (h : orderTarget scope e = .ok target) : MarkFree target := by
  cases e with
  | property p => exact fits.columnText_free (free p (by simp [Expression.properties])) h
  | member path step => exact fits.pathText_free free h
  | _ => cases h

theorem Scope.MarksPlaceholders.orderText_free (fits : scope.MarksPlaceholders)
    {items : List OrderItem} {text : String}
    (free : ∀ item ∈ items, ∀ p ∈ item.expression.properties, MarkFree p.queryName)
    (h : orderText scope items = .ok text) : MarkFree text := by
  obtain ⟨texts, texts_eq, rfl⟩ := map_eq_ok.1 h
  apply MarkFree.intercalate (by decide)
  intro entry hm
  obtain ⟨item, hi, item_eq⟩ := exists_of_mem_forall₂ (mapM_eq_ok.1 texts_eq) hm
  obtain ⟨target, target_eq, rfl⟩ := map_eq_ok.1 item_eq
  have target_free := fits.orderTarget_free (free item hi) target_eq
  cases item.order with
  | asc => exact target_free
  | desc => exact target_free.append (by decide)

end Placeholders

/-! ## Requests -/

namespace Request

/-- Every part of a request compiles by itself. An ordering is compiled only where there is one. -/
structure PartsCompile (request : Request) (scope : Scope) : Prop where
  keys : ∃ fragment?, compileKey scope request.keys = .ok fragment?
  filter : ∀ e ∈ request.filter?, ∃ fragment, compileFilter scope e = .ok fragment
  orderBy : request.orderBy ≠ [] → ∃ text, orderText scope request.orderBy = .ok text

/-- The properties that the conditions of a request name, those of keys as they are stored. -/
def conditionProperties (request : Request) : List Property :=
  (request.filter?.map Expression.properties).getD [] ++
    request.keys.flatMap (·.property.columns)

/-- The properties that a request names. -/
def properties (request : Request) : List Property :=
  request.conditionProperties ++ request.orderBy.flatMap (·.expression.properties)

/-- A request in whose names no `?` stands. -/
structure NamesFree (request : Request) : Prop where
  properties : ∀ p ∈ request.properties, MarkFree p.queryName ∧ MarkFree p.storedName
  fields : ∀ field ∈ request.select, MarkFree field

end Request

namespace Response

/-- What a response has from the parts of its request, which are compiled by themselves. -/
structure ComposedOf (response : Response) (request : Request) (scope : Scope)
    (keys? filter? : Option Fragment) : Prop where
  keys_alone : compileKey scope request.keys = .ok keys?
  keys_eq : response.keys? = keys?.map (·.text)
  keys_missing : keys? = none ↔ request.keys = []
  filter_alone : request.filter?.mapM (compileFilter scope) = .ok filter?
  filter_given : response.filter?.isSome = filter?.isSome
  orderBy_alone : Request.orderText? scope request.orderBy = .ok response.orderBy?
  /-- Indices start at one and leave none out. -/
  indices : response.parameters.entries.map Prod.fst = List.range' 1 response.parameters.size
  /-- The values of the key come first, and nothing but key and filter binds a value. -/
  values : response.parameters.entries.map Prod.snd = boundBy keys? ++ boundBy filter?

/-- Each value has one placeholder in the condition, and none in what is ordered or selected. -/
structure ShowsValues (response : Response) : Prop where
  condition : ∃ shown, Marks (response.condition?.getD "") shown ∧
    shown.Perm (List.range' 1 response.parameters.size)
  select : ∀ text ∈ response.select?, MarkFree text
  orderBy : ∀ text ∈ response.orderBy?, MarkFree text

end Response

theorem exists_orderText?_iff {scope : Scope} {items : List OrderItem} :
    (∃ text?, Request.orderText? scope items = .ok text?) ↔
      (items ≠ [] → ∃ text, orderText scope items = .ok text) := by
  cases items with
  | nil => simp [Request.orderText?]
  | cons item items => simp [Request.orderText?, map_eq_ok]

section Requests

variable {request : Request} {settings : Settings} {alias? : Option String} {response : Response}

/-- A request compiles where its parts do. -/
theorem Request.exists_compile_iff :
    (∃ response, request.compile settings alias? = .ok response) ↔
      request.PartsCompile (request.scope settings alias?) := by
  simp only [compile_eq_ok]
  constructor
  · rintro ⟨_, text?, ledger, filter?, after, orderBy?, keys_eq, filter_eq, order_eq, -⟩
    obtain ⟨keys?, alone, -, -, rfl⟩ := bound_of_keyCondition? keys_eq
    exact ⟨⟨keys?, alone⟩, (exists_addFilter?_iff _ (by simp)).1 ⟨_, _, filter_eq⟩,
      exists_orderText?_iff.1 ⟨_, order_eq⟩⟩
  · rintro ⟨⟨_, keys⟩, filter, orderBy⟩
    obtain ⟨text?, ledger, keys_eq, -⟩ := compileKey_eq_ok.1 keys
    obtain ⟨keys?, -, -, -, rfl⟩ := bound_of_keyCondition? keys_eq
    have unmarked : (({} : Ledger).bindAll (boundBy keys?)).substringCompared = false := by simp
    obtain ⟨filter?, after, filter_eq⟩ := (exists_addFilter?_iff _ unmarked).2 filter
    obtain ⟨orderBy?, order_eq⟩ := exists_orderText?_iff.2 orderBy
    exact ⟨_, text?, _, filter?, after, orderBy?, keys_eq, filter_eq, order_eq, rfl⟩

/-- A response is composed of what its parts come to. -/
theorem Response.composedOf (h : request.compile settings alias? = .ok response) :
    ∃ keys? filter?,
      response.ComposedOf request (request.scope settings alias?) keys? filter? := by
  obtain ⟨text?, ledger, filterText?, after, orderBy?, keys_eq, filter_eq, order_eq, rfl⟩ :=
    Request.compile_eq_ok.1 h
  obtain ⟨keys?, keys_alone, rfl, missing, rfl⟩ := bound_of_keyCondition? keys_eq
  obtain ⟨filter?, filter_alone, given, after_eq⟩ := bound_of_addFilter? (by simp) filter_eq
  rw [← Ledger.bindAll_append] at after_eq
  refine ⟨keys?, filter?, ?_⟩
  constructor
  case keys_alone => exact keys_alone
  case keys_eq => rfl
  case keys_missing => exact missing
  case filter_alone => exact filter_alone
  case filter_given => exact given.symm
  case orderBy_alone => exact order_eq
  case indices =>
    rw [Registry.size, after_eq, Ledger.entries_bindAll, List.nil_append,
      List.map_fst_zip (by simp), List.length_zip, List.length_range', Nat.min_self]
  case values => rw [after_eq, values_entries]

end Requests

/-! ## Placeholders of requests -/

section Shown

variable {scope : Scope} {xs ys : List Nat}

theorem marks_of_keyCondition? (fits : scope.MarksPlaceholders) {predicates : List KeyPredicate}
    (free : ∀ p ∈ predicates.flatMap (·.property.columns),
      MarkFree p.queryName ∧ MarkFree p.storedName)
    {text? : Option String} {after : Ledger}
    (h : (keyCondition? scope predicates).over {} = (.ok text?, after)) :
    ∃ values shown, after = ({} : Ledger).bindAll values ∧ Marks (text?.getD "") shown ∧
      shown.Perm (List.range' 1 values.length) := by
  obtain ⟨texts, values, yields, rfl, rfl⟩ := keyYields_of_keyCondition? h
  obtain ⟨numbers, all_marks, perm⟩ := marks_of_inTurn yields fun {_ entry _ _} hm key => by
    obtain ⟨predicate, hp, rfl⟩ := List.mem_map.1 hm
    exact marks_of_keyYields fits key fun p hc => free p (List.mem_flatMap.2 ⟨predicate, hp, hc⟩)
  refine ⟨values, numbers.flatten, rfl, ?_, perm⟩
  cases predicates with
  | nil =>
    cases yields
    cases all_marks
    rfl
  | cons predicate predicates => exact Marks.conjunction all_marks

theorem marks_of_addFilter? (fits : scope.MarksPlaceholders) {filter? : Option Expression}
    (free : ∀ p ∈ (filter?.map Expression.properties).getD [], MarkFree p.queryName)
    {ledger after : Ledger} {text? : Option String}
    (unmarked : ledger.substringCompared = false)
    (h : ledger.addFilter? scope filter? = .ok (text?, after)) :
    ∃ values shown, after = ledger.bindAll values ∧ Marks (text?.getD "") shown ∧
      shown.Perm (List.range' ledger.nextIndex values.length) := by
  cases filter? with
  | none =>
    obtain ⟨rfl, rfl⟩ := Prod.mk.inj (Except.ok.inj h)
    exact ⟨[], [], rfl, rfl, .nil⟩
  | some e =>
    obtain ⟨text, over_eq, rfl⟩ := Ledger.addFilter?_some_eq_ok.1 h
    obtain ⟨values, yields, rfl⟩ := yields_of_filterText unmarked over_eq
    obtain ⟨shown, marks, perm⟩ := marks_of_yields fits yields free
    exact ⟨values, shown, rfl, marks, perm⟩

/-- The condition of key and filter shows the marks of both. -/
theorem marks_of_condition? {response : Response} (hk : Marks (response.keys?.getD "") xs)
    (hf : Marks (response.filter?.getD "") ys) :
    Marks (response.condition?.getD "") (xs ++ ys) := by
  have missing {zs : List Nat} (h : Marks "" zs) : zs = [] := h.unique (.of_free (by decide))
  obtain ⟨select?, keys? | keys, filter? | filter, orderBy?, parameters⟩ := response
  · obtain rfl := missing hk
    exact hf
  · obtain rfl := missing hk
    exact hf
  · obtain rfl := missing hf
    rw [List.append_nil]
    exact hk
  · exact hk.between (by decide) hf

end Shown

/-- In a response every value has one placeholder, whichever part binds it. -/
theorem Response.showsValues {request : Request} {settings : Settings} {alias? : Option String}
    {response : Response} (h : request.compile settings alias? = .ok response)
    (fits : (request.scope settings alias?).MarksPlaceholders) (free : request.NamesFree) :
    response.ShowsValues := by
  obtain ⟨keys?, ledger, filter?, after, orderBy?, keys_eq, filter_eq, order_eq, rfl⟩ :=
    Request.compile_eq_ok.1 h
  have condition_free (p : Property) (hm : p ∈ request.conditionProperties) :=
    free.properties p (List.mem_append_left _ hm)
  obtain ⟨keyValues, keyShown, rfl, key_marks, key_perm⟩ := marks_of_keyCondition? fits
    (fun p hm => condition_free p (List.mem_append_right _ hm)) keys_eq
  obtain ⟨values, shown, rfl, filter_marks, filter_perm⟩ := marks_of_addFilter? fits
    (fun p hm => (condition_free p (List.mem_append_left _ hm)).1) (by simp) filter_eq
  constructor
  case condition =>
    refine ⟨_, marks_of_condition? key_marks filter_marks, ?_⟩
    rw [Registry.size, ← Ledger.bindAll_append, Ledger.entries_bindAll, List.nil_append,
      List.length_zip, List.length_range', Nat.min_self, List.length_append,
      ← List.range'_append_1]
    rw [Ledger.nextIndex_bindAll] at filter_perm
    exact key_perm.append filter_perm
  case select =>
    intro text hm
    obtain ⟨table, alias_eq, rfl⟩ := Option.map_eq_some_iff.1 hm
    exact markFree_selectText (fits.alias_free table alias_eq) free.fields
  case orderBy =>
    rintro text ⟨⟩
    rw [Request.orderText?] at order_eq
    split at order_eq
    · cases order_eq
    · obtain ⟨text', text_eq, same⟩ := map_eq_ok.1 order_eq
      obtain rfl := Option.some.inj same
      apply fits.orderText_free ?_ text_eq
      intro item hi p hp
      have named : p ∈ request.properties :=
        List.mem_append_right _ (List.mem_flatMap.2 ⟨item, hi, hp⟩)
      exact (free.properties p named).1

/-! ## Composition -/

/-- **A request is the composition of its parts.** It compiles where its key, its filter and its
ordering do by themselves. The values of its placeholders are those that the key binds by itself,
followed by those that the filter binds by itself, and their indices start at one and leave none
out. Where `?` stands for placeholders only, each value has one placeholder in the condition of key
and filter, and none in what is selected or ordered. -/
theorem Request.compile_composes (request : Request) (settings : Settings)
    (alias? : Option String) :
    ((∃ response, request.compile settings alias? = .ok response) ↔
        request.PartsCompile (request.scope settings alias?)) ∧
      ∀ response, request.compile settings alias? = .ok response →
        (∃ keys? filter?,
          response.ComposedOf request (request.scope settings alias?) keys? filter?) ∧
        ((request.scope settings alias?).MarksPlaceholders → request.NamesFree →
          response.ShowsValues) := by
  refine ⟨exists_compile_iff, ?_⟩
  intro response h
  exact ⟨Response.composedOf h, Response.showsValues h⟩

/-- One line of an order, with a filter and an ordering, for a table that is renamed from
outside. -/
def lineRequest : Request where
  alias? := some "o"
  filter? := some (.binary .gt (.property ⟨"Age", .simple .int32, none, []⟩) (.literal "40" .int32))
  keys := [⟨⟨"Region", .simple .string, none, []⟩, "'EU'"⟩,
    ⟨⟨"Line", .simple .int32, none, []⟩, "10"⟩]
  orderBy := [⟨.property ⟨"Age", .simple .int32, none, []⟩, .desc⟩]
  select := ["Age", "Line"]

/-- The response to `lineRequest` for the alias `t`. -/
def lineResponse : Response where
  select? := some "t.Age, t.Line"
  keys? := some "t.Region = ?1 AND t.Line = ?2"
  filter? := some "(t.Age > ?3)"
  orderBy? := some "t.Age DESC"
  parameters := (({} : Ledger).bindAll
    [.string "EU", .int ⟨10, by decide, by decide⟩, .int ⟨40, by decide, by decide⟩]).registry

set_option maxRecDepth 8000 in
/-- The filter binds the third value, behind both values of the key. -/
theorem compile_composes_of_lineRequest :
    lineRequest.compile {} (some "t") = .ok lineResponse ∧
      lineRequest.PartsCompile (lineRequest.scope {} (some "t")) ∧
      (∃ keys? filter?,
        lineResponse.ComposedOf lineRequest (lineRequest.scope {} (some "t")) keys? filter?) ∧
      lineResponse.ShowsValues := by
  have run : lineRequest.compile {} (some "t") = .ok lineResponse := rfl
  have composes := Request.compile_composes lineRequest {} (some "t")
  have fits : (lineRequest.scope {} (some "t")).MarksPlaceholders :=
    ⟨rfl, fun table hm => by obtain rfl := Option.some.inj hm; decide⟩
  have free : lineRequest.NamesFree := by
    constructor
    · simp only [Request.properties, Request.conditionProperties, lineRequest, Property.columns,
        partColumns, Expression.properties, Option.map_some, Option.getD_some, List.flatMap_cons,
        List.flatMap_nil]
      decide
    · decide
  obtain ⟨composed, shows⟩ := composes.2 _ run
  exact ⟨run, composes.1.1 ⟨_, run⟩, composed, shows fits free⟩

end EntityQuery
