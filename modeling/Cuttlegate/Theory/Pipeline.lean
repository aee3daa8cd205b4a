import Cuttlegate.Theory.BrokenStreams
import Cuttlegate.Theory.Delivery
import Cuttlegate.Theory.GoSubscribe
import Cuttlegate.Lib.Rows

/-!
# From the Publisher to the Consumer

The whole way of a change of a flag: from a publisher through the channel of a
stream at the broker, the handler of the stream, the wire, and the scanner of
the Go client, to the consumer of a subscription.

Each stage passes on a beginning of what it got, of which it may skip what
belongs to another project, environment or flag. So what arrives is in order
and without gaps, connection by connection, and the consumer is told of nothing
that was not published.

The handler is given a writer that can flush.

## Main definitions

* `Connection`: One stream that a subscription reads, end to end.
* `linesRead`: The lines a goroutine was handed.

## Theorems

* `Connection.updates_prefix`: What one connection tells.
* `publish_to_consumer`: What the consumer gets.
-/

namespace Cuttlegate

open Sdk.Go

/-- One stream, from its channel at the broker to the lines that the goroutine
    of the client has scanned. -/
structure Connection (projSlug envSlug : String) (O : List (Seen FlagStateChangedEvent)) where
  subscriber : Nat
  inputs : List StreamInput
  /-- The handler is woken up by the messages of its channel. -/
  taken : receivedEvents inputs <+: (receivedBy subscriber O).map Prod.snd
  chunks : List (List Char)
  arrived : chunks.flatten <+:
    wireText (SSEHandler.loopWire rfc3339 marshalPayload projSlug envSlug inputs)
  lines : List (List Char)
  scanned : lines <+: scan chunks

/-- The lines a goroutine was handed. -/
def linesRead (H : List SubscribeEvent) : List (List Char) :=
  H.filterMap (fun e => match e with
    | .line text => some text
    | _ => none)

/-- The updates that lines tell. -/
def updatesOf (parse : String → Option Json) (key : String) (lines : List (List Char)) :
    List FlagUpdate :=
  lines.flatMap (fun line => (processLine parse key line).filterMap Heard.toUpdate)

/-- The update an event is announced by. -/
def FlagStateChangedEvent.update (e : FlagStateChangedEvent) : FlagUpdate :=
  ⟨e.flagKey, e.enabled, some (fullSecond e.timestamp)⟩

/-- What counts of a run comes from its lines. -/
theorem told_updates (parse : String → Option Json) (key : String) (cancelled : Bool)
    (H : List SubscribeEvent) :
    told (SubscribeEvent.updates parse key) cancelled H <+:
      updatesOf parse key (linesRead H) := by
  -- After a cancellation no line counts any more.
  have hnone : ∀ H, told (SubscribeEvent.updates parse key) true H = [] := by
    intro H
    induction H with
    | nil => rfl
    | cons e H ih =>
        rw [told, Bool.true_or, ih, List.append_nil]
        cases e <;> rfl
  induction H generalizing cancelled with
  | nil => exact List.prefix_rfl
  | cons e H ih =>
      cases cancelled with
      | true =>
          rw [hnone]
          exact List.nil_prefix
      | false =>
          rw [told]
          cases e
          case line text =>
            exact (List.prefix_append_right_inj _).mpr (ih _)
          all_goals exact ih _

/-- The beginning of a list of images. -/
theorem prefix_map {α β : Type} (f : α → β) (l : List α) (l' : List β) (h : l' <+: l.map f) :
    ∃ part, part <+: l ∧ l' = part.map f := by
  rw [List.prefix_iff_eq_take, ← List.map_take] at h
  exact ⟨_, List.take_prefix _ l, h⟩

/-- The event is about the flag. -/
def isFor (projSlug envSlug key : String) (e : FlagStateChangedEvent) : Bool :=
  decide (e.project = projSlug ∧ e.environment = envSlug) && decide (e.flagKey = key)

section Consumer

variable {projSlug envSlug : String} {O : List (Seen FlagStateChangedEvent)}
  (parse : String → Option Json) (key : String)

/-- What one connection tells is a beginning of what its channel delivered,
    less what is not about the flag. -/
theorem Connection.updates_prefix (c : Connection projSlug envSlug O)
    (hslugs : ∀ e ∈ (receivedBy c.subscriber O).map Prod.snd,
      IsSlug e.project ∧ IsSlug e.environment ∧ IsSlug e.flagKey)
    (hclock : ∀ e ∈ (receivedBy c.subscriber O).map Prod.snd, yearOf e.timestamp < 10000)
    (hparse : ∀ e ∈ (receivedBy c.subscriber O).map Prod.snd, Decodes parse e) :
    ∃ part, part <+: ((receivedBy c.subscriber O).map Prod.snd).filter
        (isFor projSlug envSlug key) ∧
      updatesOf parse key c.lines = part.map (·.update) := by
  have hsub : ∀ e ∈ ownEvents projSlug envSlug c.inputs,
      e ∈ (receivedBy c.subscriber O).map Prod.snd :=
    fun e he => c.taken.subset (List.mem_of_mem_filter he)
  have htame := streamFrames_tame projSlug envSlug c.inputs (fun e he => hslugs e (hsub e he))
  have hframes : ∀ e, some e ∈ streamFrames projSlug envSlug c.inputs →
      Tame e ∧ yearOf e.timestamp < 10000 ∧ Decodes parse e := by
    intro e he
    have hin := hsub e ((mem_streamFrames _ _ _ e).mp he)
    exact ⟨htame e he, hclock e hin, hparse e hin⟩
  have harrived := c.arrived
  rw [wireText_eq] at harrived
  rcases cut_found _ htame c.chunks.flatten harrived with ⟨m, tail, _, htail, _, hgo, _⟩
  rcases Sdk.Go.reads_cut parse _ m c.chunks tail key hframes htail hgo with
    ⟨k, errs, _, herrs, hheard⟩
  rw [streamFrames_events] at hheard
  -- Errors are no updates, and fewer lines tell fewer updates.
  have hall : updatesOf parse key (scan c.chunks) =
      (((ownEvents projSlug envSlug c.inputs).take k).filter
        (fun e => e.flagKey = key)).map (·.update) := by
    have hcount : updatesOf parse key (scan c.chunks) =
        (attemptStream parse key c.chunks).filterMap Heard.toUpdate := by
      rw [updatesOf, attemptStream, List.filterMap_flatMap]
    have herr : errs.filterMap Heard.toUpdate = [] := by
      rcases herrs with rfl | rfl <;> rfl
    rw [hcount, hheard, List.filterMap_append, herr, List.append_nil, List.filterMap_map]
    rw [← List.filterMap_eq_map]
    rfl
  have hlines : updatesOf parse key c.lines <+: updatesOf parse key (scan c.chunks) := by
    rcases c.scanned with ⟨rest, hrest⟩
    rw [updatesOf, updatesOf, ← hrest, List.flatMap_append]
    exact List.prefix_append _ _
  rw [hall] at hlines
  rcases prefix_map _ _ _ hlines with ⟨part, hpart, hmap⟩
  refine ⟨part, hpart.trans ?_, hmap⟩
  have hown : (ownEvents projSlug envSlug c.inputs).filter (fun e => e.flagKey = key) <+:
      ((receivedBy c.subscriber O).map Prod.snd).filter (isFor projSlug envSlug key) := by
    have hfilter : (ownEvents projSlug envSlug c.inputs).filter (fun e => e.flagKey = key) =
        (receivedEvents c.inputs).filter (isFor projSlug envSlug key) := by
      rw [ownEvents, List.filter_filter]
      refine List.filter_congr (fun e _ => ?_)
      rw [isFor, Bool.and_comm]
    rw [hfilter]
    exact c.taken.filter _
  exact ((List.take_prefix k _).filter _).trans hown

/-- What several connections tell, one after another. -/
theorem Connection.all_updates (conns : List (Connection projSlug envSlug O))
    (hone : ∀ c ∈ conns, ∃ part, part <+: ((receivedBy c.subscriber O).map Prod.snd).filter
        (isFor projSlug envSlug key) ∧ updatesOf parse key c.lines = part.map (·.update)) :
    ∃ parts : List (List FlagStateChangedEvent),
      List.Forall₂ (fun c part => part <+: ((receivedBy c.subscriber O).map Prod.snd).filter
        (isFor projSlug envSlug key)) conns parts ∧
      updatesOf parse key (conns.flatMap (·.lines)) = parts.flatten.map (·.update) := by
  induction conns with
  | nil => exact ⟨[], .nil, rfl⟩
  | cons c conns ih =>
      rcases hone c List.mem_cons_self with ⟨part, hpart, hupdates⟩
      rcases ih (fun c hc => hone c (List.mem_cons_of_mem _ hc)) with ⟨parts, hparts, hrest⟩
      refine ⟨part :: parts, .cons hpart hparts, ?_⟩
      rw [updatesOf] at hrest ⊢
      rw [List.flatMap_cons, List.flatMap_append, hrest, List.flatten_cons, List.map_append,
        ← hupdates]
      rfl

/-- Whatever publishers, streams, network and consumer do: the updates the
    consumer of a subscription has got are, connection by connection, a
    beginning of the events for the flag that the channel of the stream
    delivered, and each of them was published. -/
theorem publish_to_consumer (n : Nat) (b : Hub FlagStateChangedEvent) (hhub : Hub.Run n O b)
    (hslugs : ∀ p k e, .begun p k e ∈ O →
      IsSlug e.project ∧ IsSlug e.environment ∧ IsSlug e.flagKey)
    (hclock : ∀ p k e, .begun p k e ∈ O → yearOf e.timestamp < 10000)
    (hparse : ∀ p k e, .begun p k e ∈ O → Decodes parse e)
    (s₀ t : Subscription) (H : List SubscribeEvent) (hsub : Subscribe key = some s₀)
    (hrun : Subscription.Run parse s₀ H t) (conns : List (Connection projSlug envSlug O))
    (hlines : linesRead H = conns.flatMap (·.lines)) :
    ∃ parts : List (List FlagStateChangedEvent),
      List.Forall₂ (fun c part => part <+: ((receivedBy c.subscriber O).map Prod.snd).filter
        (isFor projSlug envSlug key)) conns parts ∧
      receivedUpdates H <+: parts.flatten.map (·.update) ∧
      ∀ u ∈ receivedUpdates H, ∃ p k e, .begun p k e ∈ O ∧ e.project = projSlug ∧
        e.environment = envSlug ∧ e.flagKey = key ∧ u = e.update := by
  -- What a channel delivers was published.
  have hpublished : ∀ c ∈ conns, ∀ e ∈ (receivedBy c.subscriber O).map Prod.snd,
      ∃ p k, .begun p k e ∈ O := by
    intro c _ e he
    rcases List.mem_map.mp he with ⟨m, hm, rfl⟩
    rcases (Hub.run_known n O b hhub.2).queued.content c.subscriber m (.inl hm) with ⟨p, hbegun⟩
    exact ⟨p, m.1, hbegun⟩
  rcases Connection.all_updates parse key conns (fun c hc => by
    refine c.updates_prefix parse key (fun e he => ?_) (fun e he => ?_) (fun e he => ?_)
    · rcases hpublished c hc e he with ⟨p, k, hbegun⟩
      exact hslugs p k e hbegun
    · rcases hpublished c hc e he with ⟨p, k, hbegun⟩
      exact hclock p k e hbegun
    · rcases hpublished c hc e he with ⟨p, k, hbegun⟩
      exact hparse p k e hbegun) with ⟨parts, hparts, hall⟩
  have hreceived : receivedUpdates H <+: parts.flatten.map (·.update) := by
    rw [← hall, ← hlines]
    refine List.IsPrefix.trans ?_ (told_updates parse key false H)
    rw [← (Subscription.run_working hsub hrun).delivering.updates, List.append_assoc]
    exact List.prefix_append _ _
  refine ⟨parts, hparts, hreceived, fun u hu => ?_⟩
  rcases List.mem_map.mp (hreceived.subset hu) with ⟨e, he, rfl⟩
  rcases List.mem_flatten.mp he with ⟨part, hpart, hin⟩
  rcases Rows.forall₂_mem_right hparts part hpart with ⟨c, hc, hbegin⟩
  have hfor := List.mem_filter.mp (hbegin.subset hin)
  rcases hpublished c hc e hfor.1 with ⟨p, k, hbegun⟩
  have habout := hfor.2
  rw [isFor, Bool.and_eq_true, decide_eq_true_eq, decide_eq_true_eq] at habout
  exact ⟨p, k, e, hbegun, habout.1.1, habout.1.2, habout.2, rfl⟩

/-- One event for the flag, taken by the consumer. -/
def pipelineHistory : List (Seen FlagStateChangedEvent) :=
  [.subscribed 0, .begun 7 0 sampleEvent, .offered 0 0 .sent, .finished 0,
    .received 0 0 sampleEvent]

def pipelineEvents : List SubscribeEvent :=
  [.responded 200, .line (frameBody (some sampleEvent)), .sent,
    .receivedUpdate ⟨"checkout", true, some 1700000000000000000⟩]

/-- The stream they go through. -/
def pipelineConnection : Connection "demo" "prod" pipelineHistory where
  subscriber := 0
  inputs := [.event sampleEvent]
  taken := List.prefix_rfl
  chunks := [wireText (SSEHandler.loopWire rfc3339 marshalPayload "demo" "prod"
    [.event sampleEvent])]
  arrived := by
    rw [List.flatten_singleton]
  lines := [frameBody (some sampleEvent)]
  scanned := by decide +kernel

theorem publish_to_consumer_one :
    ∃ p k e, .begun p k e ∈ pipelineHistory ∧ e.project = "demo" ∧ e.environment = "prod" ∧
      e.flagKey = "checkout" ∧
      (⟨"checkout", true, some 1700000000000000000⟩ : FlagUpdate) = e.update := by
  have hhub : ∃ b, Hub.Run 1 pipelineHistory b :=
    ⟨_, Nat.le_refl 1,
      Steps.cons _ _ _ _ _ (.subscribed _ 0 rfl rfl) <|
      Steps.cons _ _ _ _ _
        (.begun _ 7 sampleEvent rfl (fun _ hx => (List.not_mem_nil hx).elim)) <|
      Steps.cons _ _ _ _ _
        (.offered _ ⟨7, 0, sampleEvent, [0]⟩ 0 List.mem_cons_self List.mem_cons_self) <|
      Steps.cons _ _ _ _ _ (.finished _ ⟨7, 0, sampleEvent, []⟩ List.mem_cons_self rfl) <|
      Steps.single _ _ _ (.received _ 0 (0, sampleEvent) [] rfl)⟩
  rcases hhub with ⟨b, hhub⟩
  have honly : ∀ p k e, .begun p k e ∈ pipelineHistory → e = sampleEvent := by
    intro p k e he
    simp only [pipelineHistory, List.mem_cons, Seen.begun.injEq, reduceCtorEq, false_or, or_false,
      List.not_mem_nil] at he
    exact he.2.2
  have hshort : ∀ text : List Char, text ≠ (marshalPayload (payloadOf sampleEvent)).toList →
      sampleParse (String.ofList text) = none := by
    intro text hne
    refine if_neg (fun heq => hne ?_)
    rw [← heq, String.toList_ofList]
  rcases hplay : pipelineEvents.foldlM (fun s e => (s.step sampleParse e).bind Except.toOption)
    ({ key := "checkout" } : Subscription) with _ | t
  · exact absurd hplay (by decide +kernel)
  rcases publish_to_consumer sampleParse "checkout" 1 b hhub
    (fun p k e he => by rw [honly p k e he]; unfold IsSlug; decide)
    (fun p k e he => by rw [honly p k e he]; decide)
    (fun p k e he => by
      rw [honly p k e he]
      exact ⟨if_pos rfl, fun text _ hne => hshort text hne⟩)
    _ t pipelineEvents rfl
    (Subscription.run_of_foldlM sampleParse _ pipelineEvents t hplay) [pipelineConnection] rfl
    with ⟨_, _, _, hall⟩
  exact hall _ (by decide)

end Consumer

end Cuttlegate
