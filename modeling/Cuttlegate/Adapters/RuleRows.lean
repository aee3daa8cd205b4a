import Cuttlegate.Adapters.Decode
import Cuttlegate.Lib.JsonColumn
import Cuttlegate.Store.Repository

/-!
# The Rows of Rules

The rule repository below the level of rules: what a statement writes into the
rule table, and how a row is read back.

The conditions and the rollout of a rule are documents, each with its own
converter in either direction, and the response of the API has two more. A
rule without a rollout has no document there. The row is what the database
gives back, so its id is in canonical spelling and its documents are in the
form of their columns.

`RuleTable` is the table with what holds of it whatever was written: no two
rows have one id, and every row can be read. `RuleTable.rules` are the rules
read from it, and a statement on rows does to them what the statement on rules
does (`RuleTable.upsert_rules`).

## Main definitions

* `marshalConditions`, `marshalRollout`: Writing the documents.
* `unmarshalConditions`, `unmarshalRollout`: Reading them.
* `RuleRow`, `scanRuleRow`: A row, and reading it.
* `ruleRow`: The row an upsert writes.
* `RuleTable`: The table, and its statements `RuleTable.upsert`,
  `RuleTable.delete`, `RuleTable.listByFlagEnvironment` and the other lists.
* `toRuleResponse`: A rule as the API answers with it.

## Theorems

* `decodeCondition_object`, `decodeEntry_object`: One element read back.
* `unmarshalConditions_read`, `unmarshalRollout_read`: A document read back.
* `Rule.reread_valid`, `scanRuleRow_ruleRow`: A row read back.
* `RuleTable.list_perm`: A list answers with the selected rules.
* `RuleTable.upsert_ok`, `RuleTable.upsert_stored`: What an upsert leaves.
* `RuleTable.upsert_rules`, `RuleTable.delete_rules`: Statements on rows are
  statements on the rules in them.
* `decode_toRuleResponse`: A response sent back asks for the rule.
-/

namespace Cuttlegate

/-! ## Documents -/

/-- A condition as an object. The table and the API have a type for it each,
    with the same fields. -/
def conditionObject (c : Condition) : Json :=
  .obj [("attribute", .str c.attr), ("operator", .str c.operator.text),
    ("values", .arr (c.values.map .str))]

def dbCondition (c : Condition) : Json := conditionObject c

def conditionJSON (c : Condition) : Json := conditionObject c

/-- A rollout entry as an object, whose types differ in one field name. -/
def entryObject (variantField : String) (e : RolloutEntry) : Json :=
  .obj [(variantField, .str e.variantKey), ("weight", .ofInt e.weight.toInt)]

def dbRolloutEntry (e : RolloutEntry) : Json := entryObject "variant_key" e

def rolloutEntryJSON (e : RolloutEntry) : Json := entryObject "variantKey" e

/-- Filling the field of a condition that a key names. -/
def setCondition (key : String) (v : Json) (c : Condition) : Option Condition :=
  if Json.named "attribute" key then
    (Json.decodeString c.attr v).map (fun s => { c with attr := s })
  else if Json.named "operator" key then
    (Json.decodeString c.operator.text v).map (fun s => { c with operator := .ofText s })
  else if Json.named "values" key then
    (Json.decodeList (Json.decodeString "") v).map (fun l => { c with values := l })
  else some c

/-- Filling the field of an entry that a key names. -/
def setEntry (variantField key : String) (v : Json) (e : RolloutEntry) : Option RolloutEntry :=
  if Json.named variantField key then
    (Json.decodeString e.variantKey v).map (fun s => { e with variantKey := s })
  else if Json.named "weight" key then
    (Json.decodeInt e.weight.toInt v).map (fun i => { e with weight := .ofInt i })
  else some e

def decodeDbRolloutEntry : Json → Option RolloutEntry :=
  Json.decodeRecord (setEntry "variant_key") ⟨"", 0⟩

def marshalConditions (conditions : List Condition) : Json := .arr (conditions.map dbCondition)

/-- An empty rollout is no document at all. -/
def marshalRollout (entries : List RolloutEntry) : Option Json :=
  if entries.length = 0 then none else some (.arr (entries.map dbRolloutEntry))

def unmarshalConditions (data : Json) : Option (List Condition) :=
  Json.decodeList decodeCondition data

def unmarshalRollout (data : Option Json) : Option (List RolloutEntry) :=
  match data with
  | none => some []
  | some v => Json.decodeList decodeDbRolloutEntry v

/-- Conditions are read in one way, from a row as from a request. -/
theorem decodeCondition_eq :
    decodeCondition = Json.decodeRecord setCondition ⟨"", .ofText "", []⟩ := rfl

/-- The API reads an entry as the table does, under the other field name. -/
theorem decodeRolloutEntry_eq :
    decodeRolloutEntry = Json.decodeRecord (setEntry "variantKey") ⟨"", 0⟩ := rfl

section Fields

variable (v : Json)

theorem setCondition_attribute : setCondition "attribute" v
    = fun c => (Json.decodeString c.attr v).map (fun s => { c with attr := s }) := by
  funext c
  rw [setCondition, if_pos (by decide)]

theorem setCondition_operator : setCondition "operator" v = fun c =>
    (Json.decodeString c.operator.text v).map (fun s => { c with operator := .ofText s }) := by
  funext c
  rw [setCondition, if_neg (by decide), if_pos (by decide)]

theorem setCondition_values : setCondition "values" v = fun c =>
    (Json.decodeList (Json.decodeString "") v).map (fun l => { c with values := l }) := by
  funext c
  rw [setCondition, if_neg (by decide), if_neg (by decide), if_pos (by decide)]

theorem setEntry_variant (variantField : String) : setEntry variantField variantField v
    = fun e => (Json.decodeString e.variantKey v).map (fun s => { e with variantKey := s }) := by
  funext e
  rw [setEntry, if_pos (Json.named_self _)]

theorem setEntry_weight (variantField : String)
    (hfield : Json.named variantField "weight" = false) : setEntry variantField "weight" v =
      fun e => (Json.decodeInt e.weight.toInt v).map (fun i => { e with weight := .ofInt i }) := by
  funext e
  rw [setEntry, hfield, if_neg Bool.false_ne_true, if_pos (Json.named_self _)]

end Fields

/-! ## One element read back -/

/-- The operator as it is read back from its text. One that is not supported
    may be spelt like one that is. -/
def Condition.reread (c : Condition) : Condition :=
  { c with operator := .ofText c.operator.text }

theorem decodeCondition_object (c : Condition) :
    decodeCondition (conditionObject c) = some c.reread := by
  have hvalues : Json.decodeList (Json.decodeString "") (.arr (c.values.map .str))
      = some (c.values.map id) :=
    Json.decodeList_map Json.str (Json.decodeString "") id c.values (fun _ _ => rfl)
  simp only [decodeCondition_eq, conditionObject, Json.decodeRecord, List.foldlM_cons,
    List.foldlM_nil, setCondition_attribute, setCondition_operator, setCondition_values,
    Json.decodeString, hvalues, List.map_id]
  rfl

theorem decodeEntry_object (variantField : String)
    (hfield : Json.named variantField "weight" = false) (e : RolloutEntry) :
    Json.decodeRecord (setEntry variantField) ⟨"", 0⟩ (entryObject variantField e) = some e := by
  have hweight : ∀ old, Json.decodeInt old (.ofInt e.weight.toInt) = some e.weight.toInt :=
    fun old => Json.decodeInt_ofInt old _ e.weight.le_toInt e.weight.toInt_lt
  simp only [entryObject, Json.decodeRecord, List.foldlM_cons, List.foldlM_nil, setEntry_variant,
    setEntry_weight _ variantField hfield, Json.decodeString, hweight]
  simp

/-! ## Documents from the columns -/

theorem stableAt_condition (c : Condition) : Json.StableAt decodeCondition (conditionObject c) := by
  refine Json.stableAt_record setCondition _ (by simp) ?_ ?_ _
  · simp only [Json.Independent, List.map_cons, List.map_nil, List.pairwise_cons,
      List.forall_mem_cons, Json.Swap, setCondition_attribute, setCondition_operator,
      setCondition_values, Option.bind_map, Function.comp_def]
    exact ⟨⟨fun _ _ _ => Json.bind_map_swap _ _ _, fun _ _ _ => Json.bind_map_swap _ _ _,
      List.forall_mem_nil _⟩, ⟨fun _ _ _ => Json.bind_map_swap _ _ _, List.forall_mem_nil _⟩,
      List.forall_mem_nil _, .nil⟩
  · simp only [List.forall_mem_cons, setCondition_attribute, setCondition_operator,
      setCondition_values]
    exact ⟨fun a => Json.stableAt_map _ _ _ (Json.stableAt_string a.attr _),
      fun a => Json.stableAt_map _ _ _ (Json.stableAt_string a.operator.text _),
      fun a => Json.stableAt_map _ _ _
        (Json.stableAt_list _ _ (fun v _ => Json.stableAt_string "" v)), List.forall_mem_nil _⟩

theorem stableAt_entry (variantField : String)
    (hfield : Json.named variantField "weight" = false) (e : RolloutEntry) :
    Json.StableAt (Json.decodeRecord (setEntry variantField) ⟨"", 0⟩)
      (entryObject variantField e) := by
  have hne : variantField ≠ "weight" := by
    rintro rfl
    exact absurd (Json.named_self _) (Bool.eq_false_iff.mp hfield)
  refine Json.stableAt_record (setEntry variantField) _ (by simp [hne]) ?_ ?_ _
  · simp only [Json.Independent, List.map_cons, List.map_nil, List.pairwise_cons,
      List.forall_mem_cons, Json.Swap, setEntry_variant, setEntry_weight _ variantField hfield,
      Option.bind_map, Function.comp_def]
    exact ⟨⟨fun _ _ _ => Json.bind_map_swap _ _ _, List.forall_mem_nil _⟩,
      List.forall_mem_nil _, .nil⟩
  · simp only [List.forall_mem_cons, setEntry_variant, setEntry_weight _ variantField hfield]
    exact ⟨fun a => Json.stableAt_map _ _ _ (Json.stableAt_string a.variantKey _),
      fun a => Json.stableAt_map _ _ _ (Json.stableAt_int a.weight.toInt _),
      List.forall_mem_nil _⟩

theorem unmarshalConditions_read (col : JsonColumn) (conditions : List Condition) (v : Json)
    (hread : col.read (marshalConditions conditions) = some v) :
    unmarshalConditions v = some (conditions.map Condition.reread) := by
  refine col.decode_read _ _ v _ hread (Json.stableAt_list _ _ (fun x hx => ?_))
    (Json.decodeList_map dbCondition _ _ conditions (fun c _ => decodeCondition_object c))
  rcases List.mem_map.mp hx with ⟨c, _, rfl⟩
  exact stableAt_condition c

/-- A rollout is read back, an empty one from no document. -/
theorem unmarshalRollout_read (col : JsonColumn) (entries : List RolloutEntry)
    (data : Option Json) (hread : col.readNullable (marshalRollout entries) = some data) :
    unmarshalRollout data = some entries := by
  have hfield : Json.named "variant_key" "weight" = false := by decide
  unfold marshalRollout at hread
  by_cases hempty : entries.length = 0
  · rw [if_pos hempty] at hread
    rw [← Option.some.inj hread, List.length_eq_zero_iff.mp hempty]
    rfl
  · rw [if_neg hempty] at hread
    rcases Option.map_eq_some_iff.mp hread with ⟨v, hv, rfl⟩
    refine col.decode_read _ _ v _ hv (Json.stableAt_list _ _ (fun x hx => ?_)) ?_
    · rcases List.mem_map.mp hx with ⟨e, _, rfl⟩
      exact stableAt_entry _ hfield e
    · rw [Json.decodeList_map dbRolloutEntry decodeDbRolloutEntry id entries
        (fun e _ => decodeEntry_object _ hfield e), List.map_id]

/-! ## Rows -/

/-- A row of the rule table, as the database gives it back. -/
structure RuleRow where
  id : String
  flagID : String
  environmentID : String
  name : String
  priority : Int
  conditions : Json
  variantKey : String
  rollout : Option Json
  enabled : Bool
  createdAt : Time

def scanRuleRow (row : RuleRow) : Option Rule := do
  let conditions ← unmarshalConditions row.conditions
  let rollout ← unmarshalRollout row.rollout
  return {
    id := row.id
    flagID := row.flagID
    environmentID := row.environmentID
    name := row.name
    priority := row.priority
    conditions := conditions
    variantKey := row.variantKey
    rollout := rollout
    enabled := row.enabled
    createdAt := row.createdAt }

/-- The row of a rule, under the canonical spelling of its id, unless a column
    refuses a document. -/
def ruleRow (col : JsonColumn) (id : String) (rule : Rule) : Option RuleRow := do
  let conditions ← col.read (marshalConditions rule.conditions)
  let rollout ← col.readNullable (marshalRollout rule.rollout)
  return {
    id := id
    flagID := rule.flagID
    environmentID := rule.environmentID
    name := rule.name
    priority := rule.priority
    conditions := conditions
    variantKey := rule.variantKey
    rollout := rollout
    enabled := rule.enabled
    createdAt := rule.createdAt }

/-- What an upsert writes over a row: everything but its id, its flag, its
    environment and its creation time. -/
def RuleRow.overwrite (row new : RuleRow) : RuleRow :=
  { row with name := new.name, priority := new.priority, conditions := new.conditions
             variantKey := new.variantKey, rollout := new.rollout, enabled := new.enabled }

/-- A rule as it is read back. -/
def Rule.reread (r : Rule) : Rule :=
  { r with conditions := r.conditions.map Condition.reread }

theorem ofText_text (op : Operator) (hop : op ∈ scalarOperators ∨ op ∈ listOperators) :
    Operator.ofText op.text = op := by
  cases op with
  | unsupported name => exact absurd hop (by simp [scalarOperators, listOperators])
  | _ => decide

/-- The operators of a valid rule are read back. -/
theorem Rule.reread_valid (r : Rule) (hvalid : r.validate = .ok ()) : r.reread = r := by
  have hwf := (Rule.validate_ok_iff r).mp hvalid
  have hconditions : r.conditions.map Condition.reread = r.conditions := by
    refine (List.map_congr_left (fun c hc => ?_)).trans (List.map_id _)
    rw [Condition.reread, ofText_text _ (hwf.wellFormed c hc).supported]
    rfl
  rw [Rule.reread, hconditions]

theorem scanRuleRow_ruleRow (col : JsonColumn) (id : String) (rule : Rule) (row : RuleRow)
    (hrow : ruleRow col id rule = some row) :
    scanRuleRow row = some { rule.reread with id := id } := by
  simp only [ruleRow, Option.bind_eq_bind, Option.bind_eq_some_iff,
    Option.pure_def, Option.some.injEq] at hrow
  rcases hrow with ⟨conditions, hconditions, rollout, hrollout, rfl⟩
  simp only [scanRuleRow, unmarshalConditions_read col _ _ hconditions,
    unmarshalRollout_read col _ _ hrollout]
  rfl

/-- Overwriting a row overwrites the rule in it. -/
theorem scanRuleRow_overwrite (row new : RuleRow) (old rule : Rule)
    (hold : scanRuleRow row = some old) (hnew : scanRuleRow new = some rule) :
    scanRuleRow (row.overwrite new) = some (old.overwrite rule) := by
  simp only [scanRuleRow, Option.bind_eq_bind, Option.bind_eq_some_iff, Option.pure_def,
    Option.some.injEq] at hold hnew ⊢
  rcases hold with ⟨_, _, _, _, rfl⟩
  rcases hnew with ⟨conditions, hconditions, rollout, hrollout, rfl⟩
  exact ⟨conditions, hconditions, rollout, hrollout, rfl⟩

theorem ruleRow_id (col : JsonColumn) (id : String) (rule : Rule) (row : RuleRow)
    (hrow : ruleRow col id rule = some row) : row.id = id := by
  simp only [ruleRow, Option.bind_eq_bind, Option.bind_eq_some_iff, Option.pure_def,
    Option.some.injEq] at hrow
  rcases hrow with ⟨_, _, _, _, rfl⟩
  rfl

/-- The columns that hold no document are read as they are. -/
theorem scanRuleRow_columns (row : RuleRow) (rule : Rule) (hscan : scanRuleRow row = some rule) :
    rule.id = row.id ∧ rule.flagID = row.flagID ∧ rule.environmentID = row.environmentID ∧
      rule.priority = row.priority ∧ rule.createdAt = row.createdAt := by
  simp only [scanRuleRow, Option.bind_eq_bind, Option.bind_eq_some_iff, Option.pure_def,
    Option.some.injEq] at hscan
  rcases hscan with ⟨_, _, _, _, rfl⟩
  exact ⟨rfl, rfl, rfl, rfl, rfl⟩

/-! ## The table -/

/-- The rule table: its primary key, and rows that can all be read. -/
structure RuleTable where
  rows : List RuleRow
  ids : (rows.map RuleRow.id).Nodup
  readable : ∀ row ∈ rows, ∃ rule, scanRuleRow row = some rule

/-- The loop of every list: a row that cannot be read fails it. -/
def scanRows (rows : List RuleRow) : Except Err (List Rule) :=
  match rows.mapM scanRuleRow with
  | some rules => .ok rules
  | none => .error .internal

namespace RuleTable

/-- The rules in the table. -/
def rules (table : RuleTable) : List Rule := table.rows.filterMap scanRuleRow

def empty : RuleTable := ⟨[], .nil, nofun⟩

def filter (table : RuleTable) (keep : RuleRow → Bool) : RuleTable where
  rows := table.rows.filter keep
  ids := table.ids.sublist (List.filter_sublist.map _)
  readable row hrow := table.readable row (List.mem_of_mem_filter hrow)

def overwrite (table : RuleTable) (new : RuleRow) (hnew : ∃ rule, scanRuleRow new = some rule) :
    RuleTable where
  rows := table.rows.map (fun row => if row.id = new.id then row.overwrite new else row)
  ids := by
    have hids : (RuleRow.id ∘ fun row => if row.id = new.id then row.overwrite new else row)
        = RuleRow.id := by
      funext row
      by_cases hid : row.id = new.id <;> simp [hid, RuleRow.overwrite]
    rw [List.map_map, hids]
    exact table.ids
  readable row hrow := by
    rcases List.mem_map.mp hrow with ⟨old, hold, rfl⟩
    rcases table.readable old hold with ⟨oldRule, hread⟩
    rcases hnew with ⟨rule, hnew⟩
    by_cases hid : old.id = new.id
    · rw [if_pos hid]
      exact ⟨_, scanRuleRow_overwrite old new oldRule rule hread hnew⟩
    · rw [if_neg hid]
      exact ⟨oldRule, hread⟩

def insert (table : RuleTable) (new : RuleRow) (hnew : ∃ rule, scanRuleRow new = some rule)
    (hfresh : ∀ row ∈ table.rows, row.id ≠ new.id) : RuleTable where
  rows := table.rows ++ [new]
  ids := by
    rw [List.map_append, List.nodup_append]
    refine ⟨table.ids, List.nodup_singleton _, fun id hid other hother => ?_⟩
    rcases List.mem_map.mp hid with ⟨row, hrow, rfl⟩
    rw [List.mem_singleton.mp hother]
    exact hfresh row hrow
  readable row hrow := by
    rcases List.mem_append.mp hrow with hold | hrow
    · exact table.readable row hold
    · rw [List.mem_singleton.mp hrow]
      exact hnew

/-- The upsert, keyed on the id alone; `s` has the rows a new one refers to. -/
def upsert (col : JsonColumn) (uuid : String → Option String) (s : Store) (rule : Rule)
    (table : RuleTable) : Except Err (Time × RuleTable) :=
  match uuid rule.id with
  | none => .error .internal
  | some id =>
      if fitsInt32 rule.priority = false then .error .internal
      else match hrow : ruleRow col id rule with
        | none => .error .internal
        | some new =>
            match hfind : table.rows.find? (fun row => row.id == id) with
            | some old => .ok (old.createdAt,
                table.overwrite new ⟨_, scanRuleRow_ruleRow col id rule new hrow⟩)
            | none =>
                if s.HasParents rule.flagID rule.environmentID then
                  .ok (rule.createdAt,
                    table.insert new ⟨_, scanRuleRow_ruleRow col id rule new hrow⟩ (by
                      rw [ruleRow_id col id rule new hrow]
                      simpa using hfind))
                else .error .internal

def delete (uuid : String → Option String) (id : String) (table : RuleTable) :
    Except Err (Unit × RuleTable) :=
  match uuid id with
  | none => .error .internal
  | some id =>
      if table.rows.any (fun row => row.id == id) then
        .ok ((), table.filter (fun row => row.id != id))
      else .error .notFound

def listByFlag (table : RuleTable) (order : Sorter) (flagID : String) : Except Err (List Rule) :=
  scanRows (order.sort
    (fun a b => decide (a.environmentID < b.environmentID) ||
      (a.environmentID == b.environmentID && decide (a.priority < b.priority)))
    (table.rows.filter (fun row => row.flagID == flagID)))

def listByFlagEnvironment (table : RuleTable) (order : Sorter) (flagID environmentID : String) :
    Except Err (List Rule) :=
  scanRows (order.sort (fun a b => decide (a.priority < b.priority))
    (table.rows.filter (fun row => row.flagID == flagID && row.environmentID == environmentID)))

def listByEnvironment (table : RuleTable) (order : Sorter) (environmentID : String) :
    Except Err (List Rule) :=
  scanRows (order.sort
    (fun a b => decide (a.flagID < b.flagID) ||
      (a.flagID == b.flagID && decide (a.priority < b.priority)))
    (table.rows.filter (fun row => row.environmentID == environmentID)))

/-! ## Rows and rules -/

section Rules

variable (table : RuleTable)

/-- What a query selects by columns, it selects by the fields of the rules. -/
theorem filter_rules (p : RuleRow → Bool) (q : Rule → Bool)
    (hpq : ∀ row rule, scanRuleRow row = some rule → p row = q rule) :
    (table.rows.filter p).filterMap scanRuleRow = table.rules.filter q := by
  rw [rules, List.filterMap_filter, List.filter_filterMap]
  refine List.filterMap_congr (fun row hrow => ?_)
  rcases table.readable row hrow with ⟨rule, hrule⟩
  rw [hrule, Option.filter_some, hpq row rule hrule]

/-- Reading any rows of the table succeeds. -/
theorem scanRows_ok (rows : List RuleRow) (hsub : ∀ row ∈ rows, row ∈ table.rows) :
    scanRows rows = .ok (rows.filterMap scanRuleRow) := by
  have hread : rows.mapM scanRuleRow = some (rows.filterMap scanRuleRow) := by
    induction rows with
    | nil => rfl
    | cons row rest ih =>
        rcases table.readable row (hsub row List.mem_cons_self) with ⟨rule, hrule⟩
        rw [List.mapM_cons, hrule, ih (fun x hx => hsub x (List.mem_cons_of_mem row hx)),
          List.filterMap_cons_some hrule]
        rfl
  rw [scanRows, hread]

/-- A list answers with the selected rules, in some order. -/
theorem list_perm (order : Sorter) (less : RuleRow → RuleRow → Bool) (p : RuleRow → Bool)
    (q : Rule → Bool) (hpq : ∀ row rule, scanRuleRow row = some rule → p row = q rule) :
    ∃ l, scanRows (order.sort less (table.rows.filter p)) = .ok l ∧
      l.Perm (table.rules.filter q) := by
  refine ⟨_, table.scanRows_ok _ (fun row hrow => ?_), ?_⟩
  · exact List.mem_of_mem_filter ((order.mem_sort less _ row).mp hrow)
  · rw [← table.filter_rules p q hpq]
    exact (order.perm less _).filterMap _

theorem listByFlagEnvironment_perm (order : Sorter) (flagID environmentID : String) :
    ∃ l, table.listByFlagEnvironment order flagID environmentID = .ok l ∧ l.Perm
      (table.rules.filter (fun r => r.flagID == flagID && r.environmentID == environmentID)) :=
  table.list_perm order _ _ _ (fun row rule hscan => by
    rcases scanRuleRow_columns row rule hscan with ⟨_, hflag, henv, _, _⟩
    rw [hflag, henv])

theorem listByEnvironment_perm (order : Sorter) (environmentID : String) :
    ∃ l, table.listByEnvironment order environmentID = .ok l ∧
      l.Perm (table.rules.filter (fun r => r.environmentID == environmentID)) :=
  table.list_perm order _ _ _ (fun row rule hscan => by
    rw [(scanRuleRow_columns row rule hscan).2.2.1])

/-- No two rules in the table have one id. -/
theorem rules_ids : (table.rules.map (·.id)).Nodup := by
  have hids : table.rules.map (·.id) = table.rows.map RuleRow.id := by
    rw [rules, List.map_filterMap, ← List.filterMap_eq_map]
    refine List.filterMap_congr (fun row hrow => ?_)
    rcases table.readable row hrow with ⟨rule, hrule⟩
    rw [hrule, Option.map_some, (scanRuleRow_columns row rule hrule).1, Function.comp_apply]
  rw [hids]
  exact table.ids

theorem overwrite_rules (new : RuleRow) (rule : Rule) (hnew : scanRuleRow new = some rule) :
    (table.overwrite new ⟨rule, hnew⟩).rules
      = table.rules.map (fun r => if r.id = new.id then r.overwrite rule else r) := by
  rw [rules, rules, List.map_filterMap, overwrite, List.filterMap_map]
  refine List.filterMap_congr (fun row hrow => ?_)
  rcases table.readable row hrow with ⟨old, hold⟩
  rw [Function.comp_apply, hold, Option.map_some, (scanRuleRow_columns row old hold).1]
  by_cases hid : row.id = new.id
  · rw [if_pos hid, if_pos hid]
    exact scanRuleRow_overwrite row new old rule hold hnew
  · rw [if_neg hid, if_neg hid]
    exact hold

theorem find_rules (id : String) : table.rules.find? (fun r => r.id == id)
    = (table.rows.find? (fun row => row.id == id)).bind scanRuleRow := by
  rw [rules, List.find?_filterMap]
  refine congrArg (Option.bind · scanRuleRow) (List.find?_congr (fun row hrow => ?_))
  rcases table.readable row hrow with ⟨rule, hrule⟩
  rw [hrule, Option.any_some, (scanRuleRow_columns row rule hrule).1]

/-- What a successful upsert does to the rules in the table. -/
theorem upsert_ok (col : JsonColumn) (uuid : String → Option String) (s : Store) (rule : Rule)
    (table' : RuleTable) (t : Time) (hup : table.upsert col uuid s rule = .ok (t, table')) :
    ∃ id, uuid rule.id = some id ∧ fitsInt32 rule.priority = true ∧
      ((∃ old, table.rules.find? (fun r => r.id == id) = some old ∧ old.createdAt = t ∧
          table'.rules
            = table.rules.map (fun r => if r.id = id then r.overwrite rule.reread else r)) ∨
        (table.rules.find? (fun r => r.id == id) = none ∧ rule.createdAt = t ∧
          s.HasParents rule.flagID rule.environmentID ∧
          table'.rules = table.rules ++ [{ rule.reread with id := id }])) := by
  unfold upsert at hup
  cases hid : uuid rule.id with
  | none =>
      simp only [hid] at hup
      exact (nomatch hup)
  | some id =>
      simp only [hid] at hup
      split at hup
      · exact (nomatch hup)
      rename_i hfits
      split at hup
      · exact (nomatch hup)
      rename_i new hrow
      have hnew := scanRuleRow_ruleRow col id rule new hrow
      have hnewID := ruleRow_id col id rule new hrow
      refine ⟨id, rfl, by simpa using hfits, ?_⟩
      rw [find_rules]
      -- ON CONFLICT: the row there is overwritten in place, else the rule is inserted.
      split at hup
      · rename_i old hfind
        rcases table.readable old (List.mem_of_find?_eq_some hfind) with ⟨oldRule, hold⟩
        rcases Prod.mk.inj (Except.ok.inj hup) with ⟨rfl, rfl⟩
        refine .inl ⟨oldRule, by rw [hfind, Option.bind_some, hold],
          (scanRuleRow_columns old oldRule hold).2.2.2.2, ?_⟩
        rw [overwrite_rules table new _ hnew, hnewID]
        rfl
      · rename_i hfind
        split at hup
        · rename_i hparents
          rcases Prod.mk.inj (Except.ok.inj hup) with ⟨rfl, rfl⟩
          refine .inr ⟨by rw [hfind, Option.bind_none], rfl, hparents, ?_⟩
          rw [rules, insert, List.filterMap_append, List.filterMap_cons_some hnew,
            List.filterMap_nil]
          rfl
        · exact (nomatch hup)

/-- An upsert of a row is an upsert of the rule as it is read back. -/
theorem upsert_rules (col : JsonColumn) (uuid : String → Option String) (s : Store) (rule : Rule)
    (table' : RuleTable) (t : Time) (hup : table.upsert col uuid s rule = .ok (t, table')) :
    upsertRule uuid rule.reread { s with rules := table.rules }
      = .ok (t, { s with rules := table'.rules }) := by
  rcases table.upsert_ok col uuid s rule table' t hup with ⟨id, hid, hfits, hdone⟩
  have hfits' : ¬ fitsInt32 rule.reread.priority = false := Bool.not_eq_false _ ▸ hfits
  unfold upsertRule
  rw [show rule.reread.id = rule.id from rfl, hid, refuseIf, if_neg hfits']
  rcases hdone with ⟨old, hfind, rfl, hrules⟩ | ⟨hfind, rfl, hparents, hrules⟩
  · simp only [hfind, hrules]
    rfl
  · have hparents' : ¬ ¬ Store.HasParents { s with rules := table.rules } rule.reread.flagID
        rule.reread.environmentID := not_not.mpr hparents
    simp only [hfind, hrules]
    rw [refuseIf, if_neg hparents']
    rfl

theorem any_rules (id : String) :
    table.rules.any (fun r => r.id == id) = table.rows.any (fun row => row.id == id) := by
  rw [← List.isSome_find?, ← List.isSome_find?, find_rules]
  cases hfind : table.rows.find? (fun row => row.id == id) with
  | none => rfl
  | some row =>
      rcases table.readable row (List.mem_of_find?_eq_some hfind) with ⟨rule, hrule⟩
      rw [Option.bind_some, hrule, Option.isSome_some, Option.isSome_some]

/-- So is a deletion. -/
theorem delete_rules (uuid : String → Option String) (s : Store) (id : String)
    (table' : RuleTable) (hdelete : table.delete uuid id = .ok ((), table')) :
    deleteRule uuid id { s with rules := table.rules }
      = .ok ((), { s with rules := table'.rules }) := by
  unfold delete at hdelete
  unfold deleteRule
  cases hid : uuid id with
  | none =>
      rw [hid] at hdelete
      exact (nomatch hdelete)
  | some key =>
      rw [hid] at hdelete
      by_cases hrow : table.rows.any (fun row => row.id == key) = true
      · simp only [if_pos hrow] at hdelete
        rcases Prod.mk.inj (Except.ok.inj hdelete) with ⟨_, rfl⟩
        have hrules := table.filter_rules (fun row => row.id != key) (fun r => r.id != key)
          (fun row rule hscan => by rw [(scanRuleRow_columns row rule hscan).1])
        simp only [affect, any_rules, if_pos hrow, ← hrules]
        rfl
      · simp only [if_neg hrow] at hdelete
        exact (nomatch hdelete)

/-- The rule in the table after an upsert: the given one, with its id as the
    database spells it, and under the flag and environment of the row that had
    this id if there was one. -/
theorem upsert_stored (col : JsonColumn) (uuid : String → Option String) (s : Store) (rule : Rule)
    (hvalid : rule.validate = .ok ()) (table' : RuleTable) (t : Time)
    (hup : table.upsert col uuid s rule = .ok (t, table')) :
    ∃ stored ∈ table'.rules, uuid rule.id = some stored.id ∧
      fitsInt32 stored.priority = true ∧
      stored = { rule with id := stored.id, flagID := stored.flagID,
                           environmentID := stored.environmentID, createdAt := t } ∧
      ((∀ r ∈ table.rules, r.id = stored.id →
          r.flagID = rule.flagID ∧ r.environmentID = rule.environmentID) →
        stored.flagID = rule.flagID ∧ stored.environmentID = rule.environmentID) := by
  rcases table.upsert_ok col uuid s rule table' t hup with ⟨id, hid, hfits, hdone⟩
  rw [rule.reread_valid hvalid] at hdone
  rcases hdone with ⟨old, hfind, rfl, hrules⟩ | ⟨_, rfl, _, hrules⟩
  · have hold := List.mem_of_find?_eq_some hfind
    have holdID : old.id = id := by simpa using List.find?_some hfind
    refine ⟨old.overwrite rule, ?_, by rw [hid, ← holdID]; rfl, hfits, rfl,
      fun hown => hown old hold rfl⟩
    rw [hrules]
    exact List.mem_map.mpr ⟨old, hold, if_pos holdID⟩
  · refine ⟨{ rule with id := id }, ?_, hid, hfits, rfl, fun _ => ⟨rfl, rfl⟩⟩
    rw [hrules]
    exact List.mem_append_right _ List.mem_cons_self

/-- A list that selects a rule of the table has it once, under its id. -/
theorem mem_list_iff (q : Rule → Bool) (l : List Rule) (hl : l.Perm (table.rules.filter q))
    (stored : Rule) (hstored : stored ∈ table.rules) (hq : q stored = true) (r : Rule) :
    r ∈ l ∧ r.id = stored.id ↔ r = stored := by
  constructor
  · rintro ⟨hr, hid⟩
    exact List.inj_on_of_nodup_map table.rules_ids (List.mem_of_mem_filter (hl.mem_iff.mp hr))
      hstored hid
  · rintro rfl
    exact ⟨hl.mem_iff.mpr (List.mem_filter.mpr ⟨hstored, hq⟩), rfl⟩

end Rules

end RuleTable

/-! ## Responses -/

/-- A rule as the API answers with it; `render` writes the creation time. An
    empty rollout is left out. -/
def toRuleResponse (render : Time → String) (r : Rule) : Json :=
  .obj ([("id", .str r.id), ("name", .str r.name), ("priority", .ofInt r.priority),
      ("conditions", .arr (r.conditions.map conditionJSON)), ("variantKey", .str r.variantKey)] ++
    (if r.rollout.length > 0 then [("rollout", .arr (r.rollout.map rolloutEntryJSON))] else []) ++
    [("enabled", .bool r.enabled), ("createdAt", .str (render r.createdAt))])

/-- A response read as the body of an update asks for the rule as it is. -/
theorem decode_toRuleResponse (render : Time → String) (r : Rule)
    (hpriority : fitsInt32 r.priority = true) :
    RuleBody.decode (toRuleResponse render r) = some {
      conditions := r.conditions.map Condition.reread
      variantKey := r.variantKey
      rollout := r.rollout
      priority := r.priority
      enabled := r.enabled
      name := r.name } := by
  have hconditions := Json.decodeList_map conditionJSON decodeCondition _ r.conditions
    (fun c _ => decodeCondition_object c)
  have hrollout := Json.decodeList_map rolloutEntryJSON decodeRolloutEntry id r.rollout
    (fun e _ => decodeRolloutEntry_eq ▸ decodeEntry_object "variantKey" (by decide) e)
  have hint : ∀ old, Json.decodeInt old (.ofInt r.priority) = some r.priority := fun old => by
    rw [fitsInt32, Bool.and_eq_true, decide_eq_true_iff, decide_eq_true_iff] at hpriority
    exact Json.decodeInt_ofInt old _ (by omega) (by omega)
  by_cases hempty : r.rollout = []
  · simp +decide [RuleBody.decode, toRuleResponse, Json.decodeRecord, hempty, hconditions, hint,
      Json.decodeBool, Json.decodeString]
  · have hsome : r.rollout.length > 0 := List.length_pos_iff.mpr hempty
    simp +decide [RuleBody.decode, toRuleResponse, Json.decodeRecord, hsome, hconditions, hrollout,
      hint, Json.decodeBool, Json.decodeString]

end Cuttlegate
