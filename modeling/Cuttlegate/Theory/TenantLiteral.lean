import Cuttlegate.Adapters.TenantContext

/-!
# Identifiers Written into a Statement

The identifier of a project, as a literal in the statement that sets the tenant
of a transaction.

Whatever the identifier contains, reading takes off the literal and nothing
more, as long as no quote follows it, and gives back the identifier. In the
statement nothing follows. So the statement sets the tenant to the identifier
and changes no other setting, or is refused, for a zero byte in it.

## Theorems

* `quoteLiteral_eq`: The literal is the quoted text.
* `lexLiteral_quote`: A literal that is not continued.
* `setTenantContext_eq`: What the statement does.
* `setTenantContext_conn`: It never sets another tenant.
* `quoteLiteral_exact`: The literal of an identifier, and the tenant it sets.
-/

namespace Cuttlegate

/-- The loop over the characters doubles the quotes. -/
theorem escaped_toList (text : List Char) (escaped : String) :
    (text.foldl (fun escaped c => if c = '\'' then escaped ++ "''"
      else escaped ++ String.singleton c) escaped).toList =
      escaped.toList ++ Quoted.double '\'' text := by
  induction text generalizing escaped with
  | nil => exact (List.append_nil _).symm
  | cons c text ih =>
      rw [List.foldl_cons, ih, Quoted.double_cons, ← List.append_assoc]
      by_cases hc : c = '\''
      · rw [if_pos hc, if_pos hc, String.toList_append]
        rfl
      · rw [if_neg hc, if_neg hc, String.toList_append, String.toList_singleton]

theorem quoteLiteral_eq (s : String) : (quoteLiteral s).toList = Quoted.quote '\'' s.toList := by
  rw [quoteLiteral, String.toList_append, String.toList_append, escaped_toList]
  rfl

namespace Sql

/-- A literal that is neither followed by a quote nor continued in another
    line. -/
theorem lexLiteral_quote (s rest : List Char) (h : rest.head? ≠ some '\'')
    (hline : continues rest = false) :
    lexLiteral (Quoted.quote '\'' s ++ rest) = some (s, rest) := by
  have hscan : lexString (Quoted.quote '\'' s ++ rest) = some (s, rest) :=
    Quoted.scan_quote '\'' s rest h
  rw [lexLiteral]
  split
  · next hnone => exact absurd (hnone.symm.trans hscan) (by simp)
  · next s' rest' hsome =>
      cases hsome.symm.trans hscan
      rw [hline, if_neg Bool.false_ne_true]

/-- A literal at the end of a statement. -/
theorem value_quote (s : List Char) :
    value (' ' :: Quoted.quote '\'' s) = some (s, []) := by
  have hlex : lexLiteral (Quoted.quote '\'' s) = some (s, []) := by
    have hquote := lexLiteral_quote s [] (by simp) rfl
    rwa [List.append_nil] at hquote
  have hnext : next (' ' :: Quoted.quote '\'' s) = some (.literal s, []) := by
    have hdispatch : next (' ' :: Quoted.quote '\'' s) =
        (lexLiteral (Quoted.quote '\'' s)).map (fun r => (Token.literal r.1, r.2)) := rfl
    rw [hdispatch, hlex]
    rfl
  rw [value, hnext]

/-- A statement whose tokens are read one after the other. -/
theorem parseSetLocal_of (t₀ t₁ t₂ t₃ t₄ t₅ t₆ scope name s : List Char)
    (hset : keyword "set".toList t₀ = some t₁) (hlocal : keyword "local".toList t₁ = some t₂)
    (hscope : word t₂ = some (scope, t₃)) (hdot : symbol '.' t₃ = some t₄)
    (hname : word t₄ = some (name, t₅)) (hequals : symbol '=' t₅ = some t₆)
    (hvalue : value t₆ = some (s, [])) :
    parseSetLocal t₀ = some (String.ofList (scope ++ '.' :: name), String.ofList s) := by
  simp only [parseSetLocal, hset, hlocal, hscope, hdot, hname, hequals, hvalue,
    Option.bind_eq_bind, Option.bind_some]
  rfl

theorem parseSetLocal_literal (s : List Char) :
    parseSetLocal ("SET LOCAL app.project_id =".toList ++ ' ' :: Quoted.quote '\'' s) =
      some ("app.project_id", String.ofList s) :=
  parseSetLocal_of _ (" LOCAL app.project_id =".toList ++ ' ' :: Quoted.quote '\'' s)
    (" app.project_id =".toList ++ ' ' :: Quoted.quote '\'' s)
    (".project_id =".toList ++ ' ' :: Quoted.quote '\'' s)
    ("project_id =".toList ++ ' ' :: Quoted.quote '\'' s)
    (" =".toList ++ ' ' :: Quoted.quote '\'' s) (' ' :: Quoted.quote '\'' s)
    "app".toList "project_id".toList s rfl rfl rfl rfl rfl rfl (value_quote s)

end Sql

theorem query_toList (projectID : String) :
    ("SET LOCAL app.project_id = " ++ quoteLiteral projectID).toList =
      "SET LOCAL app.project_id =".toList ++ ' ' :: Quoted.quote '\'' projectID.toList := by
  have hstatement : "SET LOCAL app.project_id = ".toList =
      "SET LOCAL app.project_id =".toList ++ [' '] := rfl
  rw [String.toList_append, quoteLiteral_eq, hstatement, List.append_assoc, List.singleton_append]

/-- Quoting brings no zero byte in. -/
theorem nul_query_iff (projectID : String) :
    '\x00' ∈ ("SET LOCAL app.project_id = " ++ quoteLiteral projectID).toList ↔
      '\x00' ∈ projectID.toList := by
  have hdouble : ∀ text : List Char, '\x00' ∈ Quoted.double '\'' text ↔ '\x00' ∈ text := by
    intro text
    induction text with
    | nil => rfl
    | cons c text ih =>
        rw [Quoted.double_cons, List.mem_append, ih, List.mem_cons]
        refine or_congr_left ?_
        by_cases hc : c = '\''
        · rw [if_pos hc, hc]
          decide
        · rw [if_neg hc, List.mem_singleton]
  rw [query_toList, List.mem_append, List.mem_cons, Quoted.quote, List.mem_cons, List.mem_append,
    List.mem_singleton, hdouble]
  constructor
  · rintro (h | h | h | h | h)
    · exact absurd h (by decide)
    · exact absurd h (by decide)
    · exact absurd h (by decide)
    · exact h
    · exact absurd h (by decide)
  · exact fun h => .inr (.inr (.inr (.inl h)))

variable (tx : TenantTx) (projectID : String)

/-- The statement sets the tenant, unless it is refused for a zero byte. -/
theorem setTenantContext_eq :
    setTenantContext tx projectID =
      if '\x00' ∈ projectID.toList then none else some (tx.set "app.project_id" projectID) := by
  rw [setTenantContext, TenantTx.exec]
  by_cases hnul : '\x00' ∈ projectID.toList
  · rw [if_pos hnul, if_pos ((nul_query_iff projectID).mpr hnul)]
  · rw [if_neg hnul, if_neg (fun h => hnul ((nul_query_iff projectID).mp h)), query_toList,
      Sql.parseSetLocal_literal, String.ofList_toList]
    rfl

/-- A transaction that has been set up sees the rows of its project, and with
    the policies enforced no others. -/
theorem setTenantContext_conn (tx' : TenantTx) (h : setTenantContext tx projectID = some tx')
    (row : String) : tx'.conn.sees row = (!tx.rls || projectID == row) := by
  rw [setTenantContext_eq] at h
  by_cases hnul : '\x00' ∈ projectID.toList
  · rw [if_pos hnul] at h
    exact absurd h (by simp)
  · rw [if_neg hnul] at h
    cases h
    rfl

/-- Reading takes the literal of an identifier off any text that does not begin
    with a quote, and gives back the identifier; and the statement sets the
    tenant to the identifier and nothing else. -/
theorem quoteLiteral_exact (hnul : '\x00' ∉ projectID.toList) :
    (∀ rest : List Char, rest.head? ≠ some '\'' →
      Sql.lexString ((quoteLiteral projectID).toList ++ rest) = some (projectID.toList, rest)) ∧
    ∃ tx', setTenantContext tx projectID = some tx' ∧
      tx'.conn = ⟨some projectID, tx.rls⟩ ∧
      ∀ name, name ≠ "app.project_id" → tx'.settings name = tx.settings name := by
  constructor
  · intro rest hrest
    rw [quoteLiteral_eq]
    exact Quoted.scan_quote '\'' projectID.toList rest hrest
  · refine ⟨tx.set "app.project_id" projectID, ?_, rfl, ?_⟩
    · rw [setTenantContext_eq, if_neg hnul]
    · intro name hname
      exact if_neg hname

/-- An identifier that tries to end the literal and to set another tenant. -/
theorem quoteLiteral_breakout :
    ∃ tx', setTenantContext ⟨fun _ => none, true⟩ "a'; SET LOCAL app.project_id = 'b" = some tx' ∧
      tx'.conn = ⟨some "a'; SET LOCAL app.project_id = 'b", true⟩ := by
  rcases (quoteLiteral_exact ⟨fun _ => none, true⟩ "a'; SET LOCAL app.project_id = 'b"
    (by decide)).2 with ⟨tx', hset, hconn, -⟩
  exact ⟨tx', hset, hconn⟩

end Cuttlegate
