import Cuttlegate.Adapters.Mcp

/-!
# The Capability Gate

A tool call changes a flag state only on the authority of its own key lookup.

Key management, streams and messages run beside each other, one operation at a
time, so between the lookup and the change the key may have been revoked, its
tier lowered and its session closed. What can be said is about the lookup: in
the state the request found there, the key was live, its tier permitted the
tool, and the names in the arguments were those of the key's own project and
environment. The sessions do not occur in that statement at all, and with them
the tier they remember.

The proof follows the text of the message handler with the evidence it has
gathered (`serve_guarded`). The lookups of the project, the environment and
the flag come later than that of the key, but nothing that runs writes these
tables (`run_same`), so their answers hold of the earlier state too.

## Main definitions

* `Message.call`: The tool and the arguments a message asks for.
* `Permitted`: What the gates let pass.
* `Authorised`: The evidence a change of state rests on.

## Theorems

* `setEnabled_frame`: A toggle changes one row.
* `serve_guarded`: Every change of state is authorised.
* `run_same`: Projects, environments and flags stay as they are.
* `capability_gate`: The gate, over all runs.
-/

namespace Cuttlegate

/-- The tool a message calls and the arguments it gives, when it is a tool
    call with arguments for a toggle. -/
def Message.call (m : Message) : Option (String × SetEnabledArgs) :=
  match m.body.bind JsonRPCRequest.decode with
  | none => none
  | some req =>
      if req.method = "tools/call" then
        match req.params.bind ToolCallParams.decode with
        | none => none
        | some p => (p.arguments.bind SetEnabledArgs.decode).map (fun args => (p.name, args))
      else none

/-- The operation that looks up the key of a message. -/
def Message.lookup (h : McpHost) (m : Message) : McpOp :=
  .db ⟨none, .apiKeyByHash (h.host.sha256 (extractBearer m.authorization))⟩

/-- What the gates let pass: a live key of sufficient tier, and arguments that
    name the project and environment of the key. The four lookups may be
    answered from four databases. -/
structure Permitted (h : McpHost) (m : Message) (name : String) (args : SetEnabledArgs)
    (key : APIKey) (f : Flag) (s₁ s₂ s₃ s₄ : Store) : Prop where
  found : s₁.apiKeys.find? (fun k => Conn.sees ⟨none, h.host.rls⟩ k.projectID &&
    k.keyHash == h.host.sha256 (extractBearer m.authorization)) = some key
  live : key.revoked = false
  tier : ∃ required, toolTier name = some required ∧ key.capabilityTier.permits required = true
  project : ∃ proj, s₂.projects.find? (fun p => p.slug == args.projectSlug) = some proj ∧
    proj.id = key.projectID
  environment : ∃ env, s₃.environments.find? (fun e => Conn.sees ⟨none, h.host.rls⟩ e.projectID &&
    e.projectID == key.projectID && e.slug == args.environmentSlug) = some env ∧
    env.id = key.environmentID
  flag : s₄.flags.find? (fun g => Conn.sees ⟨none, h.host.rls⟩ g.projectID &&
    g.projectID == key.projectID && g.key == args.key) = some f

/-- The evidence a change of state rests on, among what the thread has seen. -/
def Authorised (h : McpHost) (r : McpRequest) (seen : List (McpOp × McpState)) (op : McpOp) :
    Prop :=
  ∃ m name args key f s₁ s₂ s₃ s₄,
    r = .message m ∧ m.call = some (name, args) ∧
    Permitted h m name args key f s₁.world.store s₂.world.store s₃.world.store s₄.world.store ∧
    (m.lookup h, s₁) ∈ seen ∧ (∀ s ∈ [s₂, s₃, s₄], ∃ o, (o, s) ∈ seen) ∧
    op = .db ⟨none, .setEnabled f.id key.environmentID (name == "enable_flag")⟩

/-- An operation that may write flag states is authorised. -/
def Justified (h : McpHost) (r : McpRequest) (seen : List (McpOp × McpState)) (op : McpOp) : Prop :=
  Tbl.states ∈ op.writes → Authorised h r seen op

section Guard

variable (h : McpHost) (r : McpRequest)

/-- Operations that do not write flag states need no authority. -/
theorem justified_of_subset {ts : List Tbl} (hts : Tbl.states ∉ ts) (op : McpOp)
    (seen : List (McpOp × McpState)) (hop : op.writes ⊆ ts) : Justified h r seen op :=
  fun hstates => absurd (hop hstates) hts

theorem justified_read (op : McpOp) (seen : List (McpOp × McpState)) (hop : op.writes = []) :
    Justified h r seen op := by
  refine justified_of_subset h r List.not_mem_nil op seen ?_
  rw [hop]
  exact List.Subset.refl _

theorem guarded_of_within {α : Type} {ts : List Tbl} (hts : Tbl.states ∉ ts) (p : McpProg α)
    (hp : McpWithin ts p) (seen : List (McpOp × McpState)) :
    Proc.Guarded (mcpExec h) (Justified h r) p seen :=
  Proc.guarded_uses (justified_of_subset h r hts) p seen hp

/-- What an operation on the database answered, it was performed for. -/
theorem mcpExec_db_ok (c : Call) (s : McpState) (a : c.Ret)
    (hans : (mcpExec h (.db c) s).1 = .ok a) :
    ∃ w', c.op.perform h.host ⟨c.tenant, h.host.rls⟩ s.world = .ok (a, w') := by
  rcases exec_ok h.host c s.world _ a (Prod.ext hans rfl) with ⟨w', hp, _⟩
  exact ⟨w', hp⟩

/-- The first gate: what follows may rely on a live key. -/
theorem liveKeyCheck_guarded (plaintext : String) {β : Type} (k : Option APIKey → McpProg β)
    (seen : List (McpOp × McpState))
    (hnone : ∀ seen', Proc.Guarded (mcpExec h) (Justified h r) (k none) seen')
    (hsome : ∀ key s, s.world.store.apiKeys.find? (fun j =>
        Conn.sees ⟨none, h.host.rls⟩ j.projectID &&
          j.keyHash == h.host.sha256 plaintext) = some key →
      key.revoked = false → Proc.Guarded (mcpExec h) (Justified h r) (k (some key))
        (seen ++ [(.db ⟨none, .apiKeyByHash (h.host.sha256 plaintext)⟩, s)])) :
    Proc.Guarded (mcpExec h) (Justified h r) (liveKeyCheck h.host.sha256 plaintext >>= k) seen := by
  unfold liveKeyCheck
  rw [Proc.bind_assoc]
  refine Proc.guarded_attempt _ _ seen (justified_read h r _ seen rfl) (fun s => ?_)
  cases hans : (mcpExec h (.db ⟨none, .apiKeyByHash (h.host.sha256 plaintext)⟩) s).1 with
  | error e => exact hnone _
  | ok key =>
      rcases mcpExec_db_ok h _ s key hans with ⟨w', hp⟩
      by_cases hrevoked : key.revoked = true
      · simp only [if_pos hrevoked]
        exact hnone _
      · simp only [if_neg hrevoked]
        exact hsome key s (World.onStore_queryRow _ _ _ _ hp).1 (Bool.not_eq_true _ ▸ hrevoked)

/-- The last gate: what follows may rely on the project and the environment
    being those of the key. -/
theorem resolveProjectAndEnv_guarded (projectSlug environmentSlug : String) (key : APIKey)
    {β : Type} (k : Except String (String × String × String) → McpProg β)
    (seen : List (McpOp × McpState))
    (herror : ∀ e seen', Proc.Guarded (mcpExec h) (Justified h r) (k (.error e)) seen')
    (hok : ∀ proj env s₂ s₃,
      s₂.world.store.projects.find? (fun p => p.slug == projectSlug) = some proj →
      proj.id = key.projectID →
      s₃.world.store.environments.find? (fun e => Conn.sees ⟨none, h.host.rls⟩ e.projectID &&
        e.projectID == proj.id && e.slug == environmentSlug) = some env →
      env.id = key.environmentID →
      Proc.Guarded (mcpExec h) (Justified h r) (k (.ok (proj.id, env.id, env.slug)))
        (seen ++ [(.db ⟨none, .projectBySlug projectSlug⟩, s₂)] ++
          [(.db ⟨none, .environmentBySlug proj.id environmentSlug⟩, s₃)])) :
    Proc.Guarded (mcpExec h) (Justified h r)
      (resolveProjectAndEnv projectSlug environmentSlug key >>= k) seen := by
  unfold resolveProjectAndEnv
  rw [Proc.bind_assoc]
  -- Two lookups, each followed by a comparison with the key; both are evidence for the
  -- write.
  refine Proc.guarded_attempt _ _ seen (justified_read h r _ seen rfl) (fun s₂ => ?_)
  cases hans : (mcpExec h (.db ⟨none, .projectBySlug projectSlug⟩) s₂).1 with
  | error e => cases e <;> exact herror _ _
  | ok proj =>
      rcases mcpExec_db_ok h _ s₂ proj hans with ⟨w', hp⟩
      by_cases hproj : proj.id = key.projectID
      · simp only [if_neg (not_not.mpr hproj), Proc.bind_assoc]
        refine Proc.guarded_attempt _ _ _ (justified_read h r _ _ rfl) (fun s₃ => ?_)
        cases hans' : (mcpExec h (.db ⟨none, .environmentBySlug proj.id environmentSlug⟩) s₃).1 with
        | error e => cases e <;> exact herror _ _
        | ok env =>
            rcases mcpExec_db_ok h _ s₃ env hans' with ⟨w'', hp'⟩
            by_cases henv : env.id = key.environmentID
            · simp only [if_neg (not_not.mpr henv)]
              exact hok proj env s₂ s₃ (World.onStore_queryRow _ _ _ _ hp).1 hproj
                (World.onStore_queryRow _ _ _ _ hp').1 henv
            · simp only [if_pos henv]
              exact herror _ _
      · simp only [if_pos hproj]
        exact herror _ _

/-- An operation of a service, inside the server. -/
theorem guarded_db {β : Type} (ctx : Ctx) (op : Op) (f : op.Ret → Prog β)
    (seen : List (McpOp × McpState)) (hop : Justified h r seen (.db ⟨ctx.tenant, op⟩))
    (hf : ∀ s a, (mcpExec h (.db ⟨ctx.tenant, op⟩) s).1 = .ok a →
      Proc.Guarded (mcpExec h) (Justified h r) (db (f a)) (seen ++ [(.db ⟨ctx.tenant, op⟩, s)])) :
    Proc.Guarded (mcpExec h) (Justified h r) (db (ctx.call op >>= f)) seen := by
  refine ⟨hop, fun s => ?_⟩
  cases hans : (mcpExec h (.db ⟨ctx.tenant, op⟩) s).1 with
  | error e => trivial
  | ok a => exact hf s a hans

/-- The toggle itself: after the flag is found, the one operation that writes
    a state. -/
theorem setEnabled_guarded (auth : Option AuthContext) (params : SetEnabledParams)
    (seen : List (McpOp × McpState))
    (hjust : ∀ f s, s.world.store.flags.find? (fun g => Conn.sees ⟨none, h.host.rls⟩ g.projectID &&
        g.projectID == params.projectID && g.key == params.flagKey) = some f →
      Authorised h r (seen ++ [(.db ⟨none, .flagByKey params.projectID params.flagKey⟩, s)])
        (.db ⟨none, .setEnabled f.id params.environmentID params.enabled⟩)) :
    Proc.Guarded (mcpExec h) (Justified h r) (db (FlagService.setEnabled ⟨auth, none⟩ params))
      seen := by
  unfold FlagService.setEnabled Ctx.require
  cases requireRole auth .editor with
  | error e => trivial
  | ok ac =>
      refine guarded_db h r ⟨auth, none⟩ _ _ seen (justified_read h r _ seen rfl)
        (fun s f hans => ?_)
      rcases mcpExec_db_ok h _ s f hans with ⟨w', hp⟩
      have hflag := (World.onStore_queryRow _ _ _ _ hp).1
      refine guarded_db h r ⟨auth, none⟩ _ _ _ (fun _ => hjust f s hflag) (fun s' u _ => ?_)
      exact guarded_of_within h r (by decide) _
        (mcpWithin_db _ (FlagService.announce_within _ params f)) _

theorem callSetEnabled_guarded (m : Message) (name : String) (args : SetEnabledArgs)
    (hcall : m.call = some (name, args)) (id rawArgs : Option Json)
    (hargs : rawArgs.bind SetEnabledArgs.decode = some args) (key : APIKey) (s₁ : McpState)
    (hfound : s₁.world.store.apiKeys.find? (fun k => Conn.sees ⟨none, h.host.rls⟩ k.projectID &&
      k.keyHash == h.host.sha256 (extractBearer m.authorization)) = some key)
    (hlive : key.revoked = false)
    (htier : ∃ required, toolTier name = some required ∧
      key.capabilityTier.permits required = true)
    (seen : List (McpOp × McpState)) (hseen : (m.lookup h, s₁) ∈ seen) :
    Proc.Guarded (mcpExec h) (Justified h (.message m))
      (callSetEnabled id rawArgs key (name == "enable_flag")) seen := by
  unfold callSetEnabled
  rw [hargs]
  refine resolveProjectAndEnv_guarded h _ _ _ key _ seen (fun _ _ => trivial)
    (fun proj env s₂ s₃ hproj hprojID henv henvID => ?_)
  refine Proc.guarded_then _ _ _ (setEnabled_guarded h _ _ _ _ (fun f s₄ hflag => ?_))
    (fun res seen' => ?_)
  · rw [hprojID] at henv hflag
    -- The write is justified by the key's lookup and by the three lookups after it.
    refine ⟨m, name, args, key, f, s₁, s₂, s₃, s₄, rfl, hcall, ⟨hfound, hlive, htier,
      ⟨proj, hproj, hprojID⟩, ⟨env, henv, henvID⟩, hflag⟩, ?_, ?_, ?_⟩
    · simp only [List.mem_append, hseen, true_or]
    · intro s hs
      simp only [List.mem_cons, List.not_mem_nil, or_false] at hs
      rcases hs with rfl | rfl | rfl
      · exact ⟨.db ⟨none, .projectBySlug args.projectSlug⟩, by simp⟩
      · exact ⟨.db ⟨none, .environmentBySlug proj.id args.environmentSlug⟩, by simp⟩
      · exact ⟨.db ⟨none, .flagByKey proj.id args.key⟩, by simp⟩
    · rw [henvID]
  · split <;> trivial

/-- A tool call is justified when the key was found live. -/
theorem handleToolsCall_guarded (m : Message) (req : JsonRPCRequest)
    (hreq : m.body.bind JsonRPCRequest.decode = some req) (hmethod : req.method = "tools/call")
    (key : APIKey) (s₁ : McpState)
    (hfound : s₁.world.store.apiKeys.find? (fun k => Conn.sees ⟨none, h.host.rls⟩ k.projectID &&
      k.keyHash == h.host.sha256 (extractBearer m.authorization)) = some key)
    (hlive : key.revoked = false) (seen : List (McpOp × McpState))
    (hseen : (m.lookup h, s₁) ∈ seen) :
    Proc.Guarded (mcpExec h) (Justified h (.message m))
      (handleToolsCall h.host.sortSlice req key) seen := by
  unfold handleToolsCall
  cases hparams : req.params.bind ToolCallParams.decode with
  | none => trivial
  | some p =>
      cases htier : toolTier p.name with
      | none =>
          simp only [htier]
          trivial
      | some required =>
          simp only [htier]
          by_cases hpermits : key.capabilityTier.permits required = false
          · simp only [if_pos hpermits]
            trivial
          rw [Bool.not_eq_false] at hpermits
          -- Both toggles run the same handler, each with its own value.
          have htoggle : Proc.Guarded (mcpExec h) (Justified h (.message m))
              (callSetEnabled req.id p.arguments key (p.name == "enable_flag")) seen := by
            cases hargs : p.arguments.bind SetEnabledArgs.decode with
            | none =>
                unfold callSetEnabled
                rw [hargs]
                trivial
            | some args =>
                have hcall : m.call = some (p.name, args) := by
                  simp only [Message.call, hreq, hmethod, if_true, hparams, hargs, Option.map_some]
                exact callSetEnabled_guarded h m p.name args hcall req.id p.arguments hargs key s₁
                  hfound hlive ⟨required, htier, hpermits⟩ seen hseen
          simp only [hpermits, Bool.true_eq_false, if_false]
          by_cases hlist : p.name = "list_flags"
          · rw [if_pos hlist]
            exact guarded_of_within h _ List.not_mem_nil _ (callListFlags_within _ _ key) seen
          by_cases heval : p.name = "evaluate_flag"
          · rw [if_neg hlist, if_pos heval]
            exact guarded_of_within h _ (by decide) _ (callEvaluateFlag_within _ _ _ key) seen
          rw [if_neg hlist, if_neg heval]
          by_cases henable : p.name = "enable_flag"
          · rw [if_pos henable]
            rw [show (p.name == "enable_flag") = true from beq_iff_eq.mpr henable] at htoggle
            exact htoggle
          · rw [if_neg henable]
            rw [show (p.name == "enable_flag") = false from
              beq_eq_false_iff_ne.mpr henable] at htoggle
            split
            · exact htoggle
            · trivial

theorem handleMessage_guarded (m : Message) :
    Proc.Guarded (mcpExec h) (Justified h (.message m)) (handleMessage h m) [] := by
  by_cases hbearer : extractBearer m.authorization = ""
  · simp only [handleMessage, if_pos hbearer]
    trivial
  by_cases hsession : m.sessionID = ""
  · simp only [handleMessage, if_neg hbearer, if_pos hsession]
    trivial
  simp only [handleMessage, if_neg hbearer, if_neg hsession]
  refine Proc.guarded_call _ _ [] (justified_read h _ _ _ rfl) (fun s₀ sess _ => ?_)
  cases hreq : m.body.bind JsonRPCRequest.decode with
  | none => trivial
  | some req =>
      refine liveKeyCheck_guarded h _ _ _ _ (fun _ => trivial) (fun key s₁ hfound hlive => ?_)
      -- The session is brought up to date, which nothing depends on.
      refine Proc.guarded_bind (justified_of_subset h _ List.not_mem_nil) _ _ _
        (updateSession_within sess _) (fun _ more => ?_)
      refine Proc.guarded_seq _ _ _ ?_ (fun _ _ => trivial)
      have hseen : (m.lookup h, s₁) ∈ [(McpOp.session m.sessionID, s₀)] ++
          [(m.lookup h, s₁)] ++ more := by simp
      unfold dispatch
      split
      · trivial
      split
      · trivial
      split
      · rename_i hmethod
        exact handleToolsCall_guarded h m req hreq hmethod key s₁ hfound hlive _ hseen
      · trivial

/-- Everything that runs is justified. -/
theorem serve_guarded : Proc.Guarded (mcpExec h) (Justified h r) (serve h r) [] := by
  have hkeys : Tbl.states ∉ [Tbl.apiKeys] := by decide
  cases r with
  | createKey ctx projectID environmentID name tier =>
      refine guarded_of_within h _ hkeys _ (mcpWithin_bind _ _ ?_ (fun _ => mcpWithin_ret _)) []
      exact mcpWithin_db _ (APIKeyService.create_within _ ctx _ _ _ _)
  | updateKeyTier ctx id tier =>
      refine guarded_of_within h _ hkeys _ (mcpWithin_bind _ _ ?_ (fun _ => mcpWithin_ret _)) []
      exact mcpWithin_db _ (APIKeyService.updateCapabilityTier_within ctx id tier)
  | revokeKey ctx id =>
      refine guarded_of_within h _ hkeys _
        (mcpWithin_db _ (within_require ctx _ _ (fun _ => ?_))) []
      exact within_call ctx _ (List.Subset.refl _)
  | sse authorization flusher =>
      exact guarded_of_within h _ List.not_mem_nil _
        (mcpWithin_bind _ _ (handleSSE_within h _ _) (fun _ => mcpWithin_ret _)) []
  | message m => exact Proc.guarded_seq _ _ [] (handleMessage_guarded h m) (fun _ _ => trivial)

end Guard

/-! ## Runs -/

/-- An operation leaves every table outside its frame alone. -/
theorem mcpExec_frame (h : McpHost) (op : McpOp) (s : McpState) (t : Tbl) (ht : t ∉ op.writes) :
    s.world.Same (mcpExec h op s).2.world t := by
  cases op with
  | db c => exact exec_frame h.host c s.world t ht
  | newSessionID =>
      have htick := s.world.same_tick s.world t (s.world.same_refl t)
      simp only [mcpExec]
      split
      · exact htick
      · exact htick
  | allow key => exact s.world.same_tick s.world t (s.world.same_refl t)
  | openSession sess => exact s.world.same_refl t
  | closeSession id => exact s.world.same_refl t
  | session id => exact s.world.same_refl t
  | setSessionTier at_ tier => exact s.world.same_refl t

/-- The runs of the tool server beside the management of keys. -/
abbrev McpRun (h : McpHost) (start : McpState) (tr : List (Nat × McpOp))
    (P : Pool Err McpOp McpOp.Ret McpState) : Prop :=
  Pool.Run (mcpExec h) (fun p => ∃ r, p = serve h r) ⟨start, []⟩ tr P

/-- Projects, environments and flags stay as they are. -/
theorem run_same (h : McpHost) (start : McpState) (tr : List (Nat × McpOp))
    (P : Pool Err McpOp McpOp.Ret McpState) (hrun : McpRun h start tr P) (t : Tbl)
    (ht : t ∉ [Tbl.states, .published, .auditEvents, .evaluations, .apiKeys]) :
    start.world.Same P.shared.world t := by
  have hop : ∀ (op : McpOp) (s : McpState),
      op.writes ⊆ [Tbl.states, .published, .auditEvents, .evaluations, .apiKeys] → True →
      True ∧ s.world.Same (mcpExec h op s).2.world t :=
    fun op s hsub _ => ⟨trivial, mcpExec_frame h op s t (fun hmem => ht (hsub hmem))⟩
  refine (Pool.run_safe (mcpExec h) _ (fun _ => True) (fun a b => a.world.Same b.world t)
    (fun s => s.world.same_refl t) (fun a b c => World.same_trans _ _ _ t) (fun p s hp _ => ?_)
    ⟨start, []⟩ trivial (fun p hp => absurd hp List.not_mem_nil) tr P hrun).2.1
  rcases hp with ⟨r, rfl⟩
  exact Proc.safe_of_uses hop _ (serve_within h r) s

/-- A toggle changes no row but that of its flag and environment. -/
theorem setEnabled_frame (h : Host) (tenant : Option String) (flagID environmentID : String)
    (enabled : Bool) (w : World) (st : FlagEnvironmentState)
    (hst : st.flagID ≠ flagID ∨ st.environmentID ≠ environmentID) :
    st ∈ (exec h ⟨tenant, .setEnabled flagID environmentID enabled⟩ w).2.store.states ↔
      st ∈ w.store.states := by
  have hfor : st.isFor flagID environmentID = false := by
    simp only [FlagEnvironmentState.isFor, Bool.and_eq_false_iff, beq_eq_false_iff_ne]
    exact hst
  rcases exec_cases h ⟨tenant, .setEnabled flagID environmentID enabled⟩ w with
    ⟨e, he⟩ | ⟨u, w', hp, he⟩
  · rw [he, World.tick_store]
  rw [he, World.tick_store]
  rcases w.onStore_ok w' _ u hp with ⟨s', hs, rfl⟩
  rcases setEnabled_ok _ _ _ _ _ _ hs with rfl | ⟨_, rfl⟩
  · -- The rows that change are rows of the flag in the environment before and
    -- after.
    rw [List.mem_map]
    constructor
    · rintro ⟨old, hold, hnew⟩
      by_cases hrow : old.isFor flagID environmentID = true
      · rw [if_pos hrow] at hnew
        rw [← hnew] at hfor
        exact absurd hrow (Bool.eq_false_iff.mp hfor)
      · rw [if_neg hrow] at hnew
        rw [← hnew]
        exact hold
    · intro hold
      exact ⟨st, hold, by rw [hfor, if_neg Bool.false_ne_true]⟩
  · rw [List.mem_append, List.mem_singleton]
    constructor
    · rintro (hold | rfl)
      · exact hold
      · simp [FlagEnvironmentState.isFor] at hfor
    · exact .inl

/-- A step that changes flag states is a tool call, and in the state of its own
    key lookup the key was live, its tier permitted the tool, and the arguments
    named the project and environment of the key; it changes the state of the
    named flag in that environment and no other. -/
theorem capability_gate (h : McpHost) (start : McpState) (tr : List (Nat × McpOp))
    (P : Pool Err McpOp McpOp.Ret McpState) (hrun : McpRun h start tr P) (i : Nat) (op : McpOp)
    (k : Except Err op.Ret → McpProg Unit) (hi : P.threads[i]? = some (.act op k))
    (hchange : (mcpExec h op P.shared).2.world.store.states ≠ P.shared.world.store.states) :
    ∃ m name args key f s,
      Pool.Joined (mcpExec h) (fun p => ∃ r, p = serve h r) ⟨start, []⟩ tr P i
        (serve h (.message m)) ∧
      m.call = some (name, args) ∧
      Pool.Performed (mcpExec h) (fun p => ∃ r, p = serve h r) ⟨start, []⟩ tr P i (m.lookup h) s ∧
      Permitted h m name args key f s.world.store s.world.store s.world.store s.world.store ∧
      ∀ st : FlagEnvironmentState, st.flagID ≠ f.id ∨ st.environmentID ≠ key.environmentID →
        (st ∈ (mcpExec h op P.shared).2.world.store.states ↔ st ∈ P.shared.world.store.states) := by
  rcases Pool.run_evidence (serve h) (Justified h) (serve_guarded h) start tr P hrun i _ hi with
    ⟨r, seen, hjoined, hguarded, hseen⟩
  have hwrites : Tbl.states ∈ op.writes := by
    by_contra hnot
    exact hchange (mcpExec_frame h op P.shared .states hnot)
  rcases hguarded.1 hwrites with
    ⟨m, name, args, key, f, s₁, s₂, s₃, s₄, rfl, hcall, hperm, hlookup, hothers, rfl⟩
  -- The later lookups found what the first would have found.
  have hsame : ∀ s o, (o, s) ∈ seen → ∀ t, t ∉ [Tbl.states, .published, .auditEvents, .evaluations,
      .apiKeys] → start.world.Same s.world t := by
    intro s o hmem t ht
    rcases hseen (o, s) hmem with ⟨tr₁, P₁, _, _, hrun₁, hs, _⟩
    have hP₁ := run_same h start tr₁ P₁ hrun₁ t ht
    rw [hs] at hP₁
    exact hP₁
  have hback : ∀ s ∈ [s₂, s₃, s₄], s.world.store.projects = s₁.world.store.projects ∧
      s.world.store.environments = s₁.world.store.environments ∧
      s.world.store.flags = s₁.world.store.flags := by
    intro s hs
    rcases hothers s hs with ⟨o, ho⟩
    exact ⟨(hsame s o ho .projects (by decide)).trans
      (hsame s₁ _ hlookup .projects (by decide)).symm,
      (hsame s o ho .environments (by decide)).trans
        (hsame s₁ _ hlookup .environments (by decide)).symm,
      (hsame s o ho .flags (by decide)).trans (hsame s₁ _ hlookup .flags (by decide)).symm⟩
  have hpermitted : Permitted h m name args key f s₁.world.store s₁.world.store s₁.world.store
      s₁.world.store := by
    refine ⟨hperm.found, hperm.live, hperm.tier, ?_, ?_, ?_⟩
    · rw [← (hback s₂ (by simp)).1]
      exact hperm.project
    · rw [← (hback s₃ (by simp)).2.1]
      exact hperm.environment
    · rw [← (hback s₄ (by simp)).2.2]
      exact hperm.flag
  refine ⟨m, name, args, key, f, s₁, hjoined, hcall, hseen _ hlookup, hpermitted, fun st hst => ?_⟩
  exact setEnabled_frame h.host none f.id key.environmentID _ P.shared.world st hst

/-- A host that knows the digest of one plaintext. -/
def demoHost : McpHost where
  host := { Host.steady with
    sha256 := fun plaintext => if plaintext = "cg_demo" then
      [28, 95, 41, 159, 137, 56, 19, 215, 13, 58, 117, 104, 7, 144, 225, 209, 205, 135, 202,
      226, 186, 2, 1, 220, 158, 14, 116, 146, 185, 145, 140, 232] else [] }
  newSessionID := fun _ => none

/-- A project with one disabled flag, and a key of the write tier. -/
def demoState : McpState where
  world := { store := {
    projects := [⟨"p1", "Shop", "shop", 0⟩]
    environments := [⟨"e1", "p1", "Production", "prod", 0⟩]
    flags := [darkMode]
    states := [⟨"f1", "e1", false⟩]
    apiKeys := [⟨"k1", "p1", "e1", "agent", demoHost.host.sha256 "cg_demo", "demo", .write, 0,
      none⟩] } }
  heap := []
  sessions := fun _ => none
  windows := fun _ => none

/-- A message that enables the flag, naming a session that does not exist. -/
def enableDarkMode : Message where
  authorization := "Bearer cg_demo"
  sessionID := "unknown"
  body := some (.obj [("jsonrpc", .str "2.0"), ("id", .num "1"), ("method", .str "tools/call"),
    ("params", .obj [("name", .str "enable_flag"), ("arguments", .obj [
      ("project_slug", .str "shop"), ("environment_slug", .str "prod"),
      ("key", .str "dark-mode")])])])

/-- The message has made all its lookups. -/
def enableReady : Pool Err McpOp McpOp.Ret McpState :=
  Pool.follow (mcpExec demoHost) ⟨demoState, [serve demoHost (.message enableDarkMode)]⟩
    [0, 0, 0, 0, 0]

theorem capability_gate_demo :
    ∃ m name args key f, ∃ s : McpState, m.call = some (name, args) ∧
      Permitted demoHost m name args key f s.world.store s.world.store s.world.store
        s.world.store := by
  have hjoin : McpRun demoHost demoState []
      ⟨demoState, [serve demoHost (.message enableDarkMode)]⟩ :=
    Pool.Run.spawn [] _ _ Pool.Run.start ⟨_, rfl⟩
  rcases Pool.run_follow (mcpExec demoHost) _ _ [0, 0, 0, 0, 0] [] _ hjoin with ⟨tr, hrun⟩
  have hnext : ∃ k, enableReady.threads[0]? =
      some (.act (.db ⟨none, .setEnabled "f1" "e1" true⟩) k) := ⟨_, rfl⟩
  rcases hnext with ⟨k, hnext⟩
  rcases capability_gate demoHost demoState tr enableReady hrun 0 _ k hnext (by decide) with
    ⟨m, name, args, key, f, s, _, hcall, _, hperm, _⟩
  exact ⟨m, name, args, key, f, s, hcall, hperm⟩

end Cuttlegate
