import CFactory.Access.Actor
import CFactory.Audit.Serialised
import CFactory.Intake.Propose
import CFactory.Store.Writers

/-!
# Confirmed actions and their trail

`routes_actions.py:53–100`, `enterprise.py:177–201`, `audit.py:412–447`. A confirmed action is sent
first and recorded afterwards, under the actor that its request names. A removal takes the item off
the board whatever the service answered. Requests are handled side by side, each in steps of its
own, and whatever is sent, is sent before its row is there.
-/

namespace CFactory.Actions

open CFactory.Access
open CFactory.Audit
open CFactory.Base
open CFactory.Model
open CFactory.Store

/-- `execute_prepared_action`; `routes_actions.py:53`. -/
def executeRoute : Route := ⟨.post, ["/api/actions/execute"], some .write⟩

/-- The settings that a request is let in under: the keys, the mode of the webhook, the identity
provider and what it verifies. -/
structure ConfirmSettings where
  keys : KeyStore
  eventsAuthMode : String
  oidcIssuer : String
  verify : Verifier

/-- A request to execute an action, and the tenant scope of its store. -/
structure Confirmation where
  headers : Headers
  idToken : Option String
  scope : Option String
  action : PreparedAction

/-- What a request is refused with: the gate denies it or naming its actor raises, or its body is
not valid. -/
inductive Refusal where
  | denied (d : Denial)
  | invalid
  deriving DecidableEq

/-- What is answered: the result, and for a removal whether an item was removed. -/
structure Reply where
  result : ActionResult
  workItemRemoved : Option Bool

/-- A request that is let in, the settings of that moment, who acts, and the valid action. -/
structure Ticket where
  settings : ConfirmSettings
  request : Confirmation
  actor : String
  action : PreparedAction

/-- How far a request is handled. One that is recorded or that raises at the trail holds the keys
of that moment. -/
inductive Handling where
  | idle
  | refused (r : Refusal)
  | taken (t : Ticket)
  | done (t : Ticket) (result : ActionResult)
  | settled (t : Ticket) (reply : Reply)
  | answered (t : Ticket) (keys : KeyStore) (reply : Reply)
  | raised (t : Ticket) (keys : KeyStore) (reply : Reply)

/-- The request of a handling that was let in. -/
def Handling.ticket : Handling → Option Ticket
  | .idle | .refused _ => none
  | .taken t | .done t _ | .settled t _ | .answered t _ _ | .raised t _ _ => some t

variable (s : AuditStore)

/-- A request at the door: the gate, the identity, and the body; `routes_actions.py:53–60`. -/
def arrived (settings : ConfirmSettings) (c : Confirmation) : Handling :=
  match letIn settings.keys settings.eventsAuthMode executeRoute [] c.headers with
  | .error d => .refused (.denied d)
  | .ok () =>
    match identityDep s settings.keys settings.oidcIssuer settings.verify c.headers c.idToken with
    | .error d => .refused (.denied d)
    | .ok actor =>
      match c.action.validated with
      | none => .refused .invalid
      | some action => .taken ⟨settings, c, actor, action⟩

/-- A removal that the service knows nothing of has succeeded, if an item was removed;
`routes_actions.py:85–87`. -/
def afterRemoval (removed : Bool) (result : ActionResult) : ActionResult :=
  if removed ∧ result.statusCode = 404 then { result with ok := true, statusCode := 200 }
  else result

/-- The board after a confirmed action, and the answer; `routes_actions.py:76–87`. -/
def settle (scope : Option String) (action : PreparedAction) (result : ActionResult)
    (items : WorkItemTable) : Reply × WorkItemTable :=
  if action.kind = "delete_task" then
    let (removed, after) := deleteItem items scope action.correlationKey
    (⟨afterRemoval removed result, some removed⟩, after)
  else (⟨result, none⟩, items)

/-- The call that records an action; `routes_actions.py:88–99`. -/
def Ticket.call (t : Ticket) (reply : Reply) (now : Time) (gap : Nat) : RecordCall where
  now := now
  actor := t.actor
  kind := t.action.kind
  correlationKey := t.action.correlationKey
  targetService := t.action.targetService
  endpoint := t.action.endpoint
  statusCode := reply.result.statusCode
  ok := reply.result.ok
  gap := gap

/-- The requests, the board, the trail, what was sent to the services and for whom, and the calls
that were recorded and for whom, oldest first. -/
structure Confirmations (ι : Type) where
  handling : ι → Handling
  items : WorkItemTable
  trail : AuditTable
  sent : List (ι × Sent)
  recorded : List (ι × KeyedCall)

/-- One step of one request: it arrives, its action is sent, the board is settled, and the row is
written. Each of the last three runs on a thread of its own. -/
inductive ConfirmMove (ι : Type) where
  | arrive (who : ι) (settings : ConfirmSettings) (c : Confirmation)
  | execute (who : ι) (outcomes : Nat → HttpOutcome)
  | settle (who : ι)
  | record (who : ι) (keys : KeyStore) (now : Time) (gap : Nat)

variable {ι : Type}

/-- Nobody has asked for anything yet. -/
def Confirmations.start (items : WorkItemTable) : Confirmations ι :=
  ⟨fun _ ↦ .idle, items, .empty, [], []⟩

variable [DecidableEq ι]

/-- What was sent for a request, in order. -/
def Confirmations.sentFor (d : Confirmations ι) (i : ι) : List Sent :=
  (d.sent.filter (·.1 = i)).map Prod.snd

/-- The request is handled further. -/
def Confirmations.goto (d : Confirmations ι) (i : ι) (h : Handling) : Confirmations ι :=
  { d with handling := Function.update d.handling i h }

/-- One move; `routes_actions.py:53–100`. A move that is not the request's next one changes
nothing. -/
def confirmMove (d : Confirmations ι) : ConfirmMove ι → Confirmations ι
  | .arrive i settings c =>
    match d.handling i with
    | .idle => d.goto i (arrived s settings c)
    | _ => d
  | .execute i outcomes =>
    match d.handling i with
    | .taken t =>
      let (result, sent) := executed outcomes t.action
      { d.goto i (.done t result) with sent := d.sent ++ sent.map (i, ·) }
    | _ => d
  | .settle i =>
    match d.handling i with
    | .done t result =>
      let (reply, items) := settle t.request.scope t.action result d.items
      { d.goto i (.settled t reply) with items := items }
    | _ => d
  | .record i keys now gap =>
    match d.handling i with
    | .settled t reply =>
      match redact s keys t.actor with
      | .error _ => d.goto i (.raised t keys reply)
      | .ok _ =>
        { d.goto i (.answered t keys reply) with
          trail := record (s.under keys) d.trail (t.call reply now gap)
          recorded := d.recorded ++ [(i, keys, t.call reply now gap)] }
    | _ => d

/-! ## Who can be named -/

theorem redactable_of_ascii {ks : KeyStore} {actor : String}
    (hkeys : ∀ e ∈ ks.keys.entries, isAscii e.1 = true) (hactor : isAscii actor = true) :
    Redactable ks actor := by
  refine .inr ?_
  rw [Comparable, comparable, List.all_eq_true]
  intro e he
  rw [hactor, hkeys e he]
  rfl

/-- Once a key is configured, an actor that can be compared with it is ASCII. -/
theorem ascii_of_redactable {ks : KeyStore} {actor : String} (hconf : ks.configured = true)
    (h : Redactable ks actor) : isAscii actor = true := by
  rcases h with rfl | hcomp
  · rfl
  · obtain ⟨e, he⟩ := List.exists_mem_of_ne_nil ks.keys.entries (by
      simpa [KeyStore.configured] using hconf)
    exact (Bool.and_eq_true_iff.mp (List.all_eq_true.mp hcomp e he)).1

theorem isAscii_keyActor {s : AuditStore} (hsha : ∀ text, isAscii (s.sha256 text) = true)
    (key : String) : isAscii (keyActor s key) = true := by
  have hstart : isAscii "unattributed:key-" = true := by decide
  have hdigest : ((s.sha256 key).toList.take 12).all (·.val < 128) = true := by
    rw [List.all_eq_true]
    exact fun c hc ↦ List.all_eq_true.mp (hsha key) c (List.mem_of_mem_take hc)
  rw [isAscii] at hstart ⊢
  rw [keyActor, String.toList_append, List.all_append, hstart, String.toList_ofList, hdigest]
  rfl

/-- The request was let in with the valid action and the actor it names. -/
structure Accepted (t : Ticket) : Prop where
  admitted : letIn t.settings.keys t.settings.eventsAuthMode executeRoute [] t.request.headers =
    .ok ()
  named : identityDep s t.settings.keys t.settings.oidcIssuer t.settings.verify t.request.headers
    t.request.idToken = .ok t.actor
  valid : t.request.action.validated = some t.action

/-- A request that is let in presents a configured key that can be compared with all of them, if
there are any. -/
theorem Accepted.keys_ascii {s : AuditStore} {t : Ticket} (h : Accepted s t) :
    ∀ e ∈ t.settings.keys.keys.entries, isAscii e.1 = true := by
  intro e he
  have hneeds : executeRoute.events = false ∧ .write ∈ executeRoute.needs := by decide +kernel
  have hletIn := (letIn_iff t.settings.keys t.settings.eventsAuthMode (r := executeRoute)
    (by decide +kernel) [] t.request.headers).mp h.admitted
  rw [hneeds.1] at hletIn
  rcases hletIn with hopen | hpresents | ⟨hevents, -⟩
  · have hnil : t.settings.keys.keys.entries = [] := by
      simp only [KeyStore.isOpen, Bool.and_eq_true, Bool.not_eq_true'] at hopen
      simpa [KeyStore.configured] using hopen.1
    rw [hnil] at he
    cases he
  · obtain ⟨key, -, hcomp, -⟩ := hpresents .write hneeds.2
    exact (Bool.and_eq_true_iff.mp (List.all_eq_true.mp hcomp e he)).2
  · cases hevents

/-- Under the keys it was let in with, only a verified person whose name is not ASCII cannot be
named in the trail. -/
theorem Accepted.redactable_iff {s : AuditStore} (hsha : ∀ text, isAscii (s.sha256 text) = true)
    {t : Ticket} (h : Accepted s t) :
    ¬ Redactable t.settings.keys t.actor ↔ t.settings.keys.configured = true ∧
      oidcActor t.settings.oidcIssuer t.settings.verify t.request.idToken = some t.actor ∧
      isAscii t.actor = false := by
  have hkeys := h.keys_ascii
  constructor
  · intro hraise
    have hnot : isAscii t.actor = false := by
      by_contra hascii
      exact hraise (redactable_of_ascii hkeys (by simpa using hascii))
    have hlocal : t.actor ≠ localIdentity := by
      intro hactor
      rw [hactor] at hnot
      exact absurd hnot (by decide)
    refine ⟨?_, ?_, hnot⟩
    · by_contra hconf
      have hnil : t.settings.keys.keys.entries = [] := by simpa [KeyStore.configured] using hconf
      exact hraise (.inr (by rw [Comparable, comparable, hnil]; rfl))
    · have hnamed := h.named
      rw [identityDep] at hnamed
      split at hnamed
      · next user huser => rw [huser, Except.ok.inj hnamed]
      · split at hnamed
        · exact absurd (Except.ok.inj hnamed).symm hlocal
        · next key _ =>
          split at hnamed
          · split at hnamed
            · cases hnamed
            · exact absurd (Except.ok.inj hnamed).symm hlocal
            · rw [← Except.ok.inj hnamed, isAscii_keyActor hsha] at hnot
              cases hnot
          · exact absurd (Except.ok.inj hnamed).symm hlocal
  · rintro ⟨hconf, -, hnot⟩ hred
    rw [ascii_of_redactable hconf hred] at hnot
    cases hnot

/-! ## What a handling accounts for -/

/-- What a request at this point has had sent: nothing before its action was executed, and then
what executing it sent; its answer is the result of that, settled with some board. -/
def Handling.Accounts : Handling → List Sent → Prop
  | .idle, sent | .refused _, sent | .taken _, sent => sent = []
  | .done t result, sent => ∃ outcomes, executed outcomes t.action = (result, sent)
  | .settled t reply, sent | .answered t _ reply, sent | .raised t _ reply, sent =>
    ∃ outcomes items, (executed outcomes t.action).2 = sent ∧
      (settle t.request.scope t.action (executed outcomes t.action).1 items).1 = reply

/-- A request is recorded where the trail can name its actor, and raises where it cannot. -/
def Handling.Named : Handling → Prop
  | .answered t keys _ => Redactable keys t.actor
  | .raised t keys _ => ¬ Redactable keys t.actor
  | _ => True

/-- The call records the answer of this handling. -/
def Handling.RecordedBy (h : Handling) (c : KeyedCall) : Prop :=
  ∃ t reply now gap, h = .answered t c.1 reply ∧ c.2 = t.call reply now gap

/-- Every request accounts for what was sent for it, and the trail is that of the answered
requests, each recorded once. -/
structure Traced (d : Confirmations ι) : Prop where
  accepted : ∀ i t, (d.handling i).ticket = some t → Accepted s t
  accounts : ∀ i, (d.handling i).Accounts (d.sentFor i)
  named : ∀ i, (d.handling i).Named
  serial : d.trail = recordKeyed s (d.recorded.map Prod.snd)
  once : (d.recorded.map Prod.fst).Nodup
  matched : ∀ i c, (i, c) ∈ d.recorded → (d.handling i).RecordedBy c
  complete : ∀ i t keys reply, d.handling i = .answered t keys reply →
    ∃ c, (i, c) ∈ d.recorded

variable {s} {d : Confirmations ι}

theorem traced_start (items : WorkItemTable) :
    Traced s (Confirmations.start items : Confirmations ι) where
  accepted := fun _ t h ↦ by cases h
  accounts := fun _ ↦ rfl
  named := fun _ ↦ trivial
  serial := rfl
  once := List.nodup_nil
  matched := fun _ _ h ↦ absurd h List.not_mem_nil
  complete := fun _ _ _ _ h ↦ by cases h

/-- What is sent for one request is sent for no other. -/
theorem sentFor_append (i j : ι) (more : List Sent) (d' : Confirmations ι)
    (hsent : d'.sent = d.sent ++ more.map (i, ·)) :
    d'.sentFor j = if j = i then d.sentFor i ++ more else d.sentFor j := by
  rw [Confirmations.sentFor, hsent, List.filter_append, List.map_append]
  split
  · next hji =>
    subst hji
    have hall : (more.map (j, ·)).filter (·.1 = j) = more.map (j, ·) := by
      rw [List.filter_eq_self]
      intro o ho
      obtain ⟨x, -, rfl⟩ := List.mem_map.mp ho
      simp
    rw [hall, List.map_map]
    exact congrArg _ (List.map_id more)
  · next hne =>
    have hnone : (more.map (i, ·)).filter (·.1 = j) = [] := by
      rw [List.filter_eq_nil_iff]
      intro o ho
      obtain ⟨x, -, rfl⟩ := List.mem_map.mp ho
      simpa using Ne.symm hne
    rw [hnone, List.map_nil, List.append_nil]
    rfl

/-- A step of one request that records nothing keeps the requests traced, if it accounts for what
it sends. -/
theorem Traced.advance (h : Traced s d) (items : WorkItemTable) (more : List Sent) {i : ι}
    {x : Handling} (hold : ∀ t keys reply, d.handling i ≠ .answered t keys reply)
    (hnew : ∀ t keys reply, x ≠ .answered t keys reply)
    (hticket : ∀ t, x.ticket = some t → Accepted s t) (hnamed : x.Named)
    (haccounts : x.Accounts (d.sentFor i ++ more)) :
    Traced s { d.goto i x with items := items, sent := d.sent ++ more.map (i, ·) } where
  accepted :=
    (Function.forall_update_iff _
      (p := fun _ x ↦ ∀ t, Handling.ticket x = some t → Accepted s t)).mpr
      ⟨hticket, fun j _ ↦ h.accepted j⟩
  accounts := fun j ↦ by
    rw [sentFor_append (d := d) i j more _ rfl]
    by_cases hji : j = i
    · rw [if_pos hji, hji]
      simpa [Confirmations.goto] using haccounts
    · rw [if_neg hji]
      simpa [Confirmations.goto, hji] using h.accounts j
  named := (Function.forall_update_iff _ (p := fun _ x ↦ Handling.Named x)).mpr
    ⟨hnamed, fun j _ ↦ h.named j⟩
  serial := h.serial
  once := h.once
  matched := fun j c hc ↦ by
    obtain ⟨t, reply, now, gap, hanswered, hcall⟩ := h.matched j c hc
    have hji : j ≠ i := by
      rintro rfl
      exact hold t c.1 reply hanswered
    exact ⟨t, reply, now, gap, (Function.update_of_ne hji _ _).trans hanswered, hcall⟩
  complete :=
    (Function.forall_update_iff _ (p := fun j x ↦ ∀ t keys reply,
      x = Handling.answered t keys reply → ∃ c, (j, c) ∈ d.recorded)).mpr
      ⟨fun t keys reply hx ↦ absurd hx (hnew t keys reply), fun j _ ↦ h.complete j⟩

/-- Recording an answer keeps the requests traced. -/
theorem Traced.record (h : Traced s d) {i : ι} {t : Ticket} {reply : Reply}
    (hsettled : d.handling i = .settled t reply) {keys : KeyStore}
    (hnamed : Redactable keys t.actor) (now : Time) (gap : Nat) :
    Traced s { d.goto i (.answered t keys reply) with
      trail := Audit.record (s.under keys) d.trail (t.call reply now gap)
      recorded := d.recorded ++ [(i, keys, t.call reply now gap)] } := by
  have hself : ∀ c, (i, c) ∉ d.recorded := by
    intro c hc
    obtain ⟨t', reply', now', gap', hanswered, -⟩ := h.matched i c hc
    rw [hsettled] at hanswered
    cases hanswered
  have hticket := h.accepted i
  have haccounts := h.accounts i
  rw [hsettled] at hticket haccounts
  refine ⟨?_, ?_, ?_, ?_, ?_, fun j c hc ↦ ?_, ?_⟩
  · exact (Function.forall_update_iff _
      (p := fun _ x ↦ ∀ t, Handling.ticket x = some t → Accepted s t)).mpr
      ⟨hticket, fun j _ ↦ h.accepted j⟩
  · exact (Function.forall_update_iff _ (p := fun j x ↦ Handling.Accounts x (d.sentFor j))).mpr
      ⟨haccounts, fun j _ ↦ h.accounts j⟩
  · exact (Function.forall_update_iff _ (p := fun _ x ↦ Handling.Named x)).mpr
      ⟨hnamed, fun j _ ↦ h.named j⟩
  · simp only [List.map_append, List.map_cons, List.map_nil]
    rw [recordKeyed, List.foldl_append, ← recordKeyed, ← h.serial]
    rfl
  · simp only [List.map_append, List.map_cons, List.map_nil]
    refine List.Nodup.append h.once (List.nodup_singleton i) ?_
    rw [List.disjoint_singleton]
    intro hmem
    obtain ⟨⟨j, c⟩, hc, rfl⟩ := List.mem_map.mp hmem
    exact hself c hc
  · rcases List.mem_append.mp hc with hc | hc
    · obtain ⟨t', reply', now', gap', hanswered, hcall⟩ := h.matched j c hc
      have hji : j ≠ i := fun heq ↦ hself c (heq ▸ hc)
      exact ⟨t', reply', now', gap', (Function.update_of_ne hji _ _).trans hanswered, hcall⟩
    · obtain ⟨rfl, rfl⟩ := Prod.mk.inj (List.mem_singleton.mp hc)
      exact ⟨t, reply, now, gap, Function.update_self .., rfl⟩
  · refine (Function.forall_update_iff _ (p := fun j x ↦ ∀ t' keys' reply',
      x = Handling.answered t' keys' reply' →
        ∃ c, (j, c) ∈ d.recorded ++ [(i, keys, t.call reply now gap)])).mpr
      ⟨fun _ _ _ _ ↦ ⟨_, List.mem_append_right _ (List.mem_singleton_self _)⟩,
        fun j _ t' keys' reply' hj ↦ ?_⟩
    obtain ⟨c, hc⟩ := h.complete j t' keys' reply' hj
    exact ⟨c, List.mem_append_left _ hc⟩

/-- A step that sends nothing, leaves the board alone and records nothing. -/
theorem Traced.goto (h : Traced s d) {i : ι} {x : Handling}
    (hold : ∀ t keys reply, d.handling i ≠ .answered t keys reply)
    (hnew : ∀ t keys reply, x ≠ .answered t keys reply)
    (hticket : ∀ t, x.ticket = some t → Accepted s t) (hnamed : x.Named)
    (haccounts : x.Accounts (d.sentFor i)) : Traced s (d.goto i x) := by
  have hstep := h.advance d.items [] hold hnew hticket hnamed (by rwa [List.append_nil])
  rw [List.map_nil, List.append_nil] at hstep
  exact hstep

/-- A request that arrives is refused, or let in as its settings say. -/
theorem arrived_cases (settings : ConfirmSettings) (c : Confirmation) :
    (∃ r, arrived s settings c = .refused r) ∨
      ∃ t, arrived s settings c = .taken t ∧ Accepted s t := by
  rw [arrived]
  split
  · exact .inl ⟨_, rfl⟩
  · next hletIn =>
    split
    · exact .inl ⟨_, rfl⟩
    · next actor hactor =>
      split
      · exact .inl ⟨_, rfl⟩
      · next action hvalid => exact .inr ⟨_, rfl, hletIn, hactor, hvalid⟩

/-- Every step of every request keeps all of them traced. -/
theorem traced_step (h : Traced s d) (m : ConfirmMove ι) : Traced s (confirmMove s d m) := by
  cases m with
  | arrive i settings c =>
    simp only [confirmMove]
    split
    · next hidle =>
      have hnone := h.accounts i
      rw [hidle] at hnone
      have hold : ∀ t keys reply, d.handling i ≠ .answered t keys reply := by simp [hidle]
      rcases arrived_cases settings c with ⟨r, hrefused⟩ | ⟨t, htaken, haccepted⟩
      · rw [hrefused]
        exact h.goto hold (by simp) (by simp [Handling.ticket]) trivial hnone
      · rw [htaken]
        refine h.goto hold (by simp) (fun t' ht' ↦ ?_) trivial hnone
        rwa [← Option.some.inj ht']
    · exact h
  | execute i outcomes =>
    simp only [confirmMove]
    split
    · next t htaken =>
      have hnone := h.accounts i
      have haccepted := h.accepted i
      rw [htaken] at hnone haccepted
      refine h.advance d.items _ (by simp [htaken]) (by simp) haccepted trivial ⟨outcomes, ?_⟩
      rw [show d.sentFor i = [] from hnone, List.nil_append]
    · exact h
  | settle i =>
    simp only [confirmMove]
    split
    · next t result hdone =>
      have haccounts := h.accounts i
      have haccepted := h.accepted i
      rw [hdone] at haccounts haccepted
      obtain ⟨outcomes, hexecuted⟩ := haccounts
      have hstep := h.advance (i := i) (settle t.request.scope t.action result d.items).2 []
        (x := .settled t (settle t.request.scope t.action result d.items).1) (by simp [hdone])
        (by simp) haccepted trivial ⟨outcomes, d.items, by simp [hexecuted], by rw [hexecuted]⟩
      rw [List.map_nil, List.append_nil] at hstep
      exact hstep
    · exact h
  | record i keys now gap =>
    simp only [confirmMove]
    split
    · next t reply hsettled =>
      rw [redact_eq]
      by_cases hnamed : Redactable keys t.actor
      · rw [if_pos hnamed]
        exact h.record hsettled hnamed now gap
      · rw [if_neg hnamed]
        have haccounts := h.accounts i
        have haccepted := h.accepted i
        rw [hsettled] at haccounts haccepted
        exact h.goto (by simp [hsettled]) (by simp) haccepted hnamed haccounts
    · exact h

/-- Whatever steps are made, all requests are traced. -/
theorem traced_run (items : WorkItemTable) (moves : List (ConfirmMove ι)) :
    Traced s (moves.foldl (confirmMove s) (Confirmations.start items)) :=
  foldl_invariant (P := Traced s) (fun _ m h ↦ traced_step h m) (traced_start items) moves

/-- A serial chain of keyed calls has a row for each of them, in their order. -/
theorem rows_recordKeyed (s : AuditStore) (calls : List KeyedCall) :
    List.Forall₂ (fun c r ↦ r.values = c.2.values (s.under c.1)) calls
      (recordKeyed s calls).rows := by
  induction calls using List.reverseRecOn with
  | nil => exact .nil
  | append_singleton calls c ih =>
    rw [recordKeyed, List.foldl_append, ← recordKeyed]
    exact List.rel_append ih (.cons rfl .nil)

/-- What a row holds of an answered request. -/
structure Traces (s : AuditStore) (t : Ticket) (keys : KeyStore) (reply : Reply) (v : Fields) :
    Prop where
  actor : redact s keys t.actor = .ok v.actor
  kind : v.kind = t.action.kind
  correlationKey : v.correlationKey = t.action.correlationKey
  targetService : v.targetService = t.action.targetService
  endpoint : v.endpoint = t.action.endpoint
  statusCode : v.statusCode = reply.result.statusCode
  ok : v.ok = reply.result.ok

/-- Keys are configured, and the caller is a verified person whose name is not ASCII. -/
def Ticket.Unnameable (t : Ticket) : Prop :=
  t.settings.keys.configured = true ∧
    oidcActor t.settings.oidcIssuer t.settings.verify t.request.idToken = some t.actor ∧
    isAscii t.actor = false

/-- The rows are those of the answered requests, in the order in which they were recorded. -/
theorem Traced.rows (h : Traced s d) :
    List.Forall₂ (fun i r ↦ ∃ t keys reply, d.handling i = .answered t keys reply ∧
      Traces s t keys reply r.values) (d.recorded.map Prod.fst) d.trail.rows := by
  rw [h.serial, List.forall₂_map_left_iff]
  have hrows := rows_recordKeyed s (d.recorded.map Prod.snd)
  rw [List.forall₂_map_left_iff, List.forall₂_iff_get] at hrows
  rw [List.forall₂_iff_get]
  refine ⟨hrows.1, fun n hn hn' ↦ ?_⟩
  have hrow := hrows.2 n hn hn'
  obtain ⟨t, reply, now, gap, hanswered, hcall⟩ := h.matched _ _ (List.get_mem d.recorded ⟨n, hn⟩)
  have hnamed := h.named (d.recorded.get ⟨n, hn⟩).1
  rw [hanswered] at hnamed
  have hredactable : Redactable (d.recorded.get ⟨n, hn⟩).2.1 t.actor := hnamed
  rw [hcall] at hrow
  refine ⟨t, _, reply, hanswered, ?_⟩
  rw [hrow]
  exact ⟨by rw [redact_eq, if_pos hredactable]; rfl, rfl, rfl, rfl, rfl, rfl, rfl⟩

/-- One key that may write, and a person whom any token names. -/
private def confirmSettings : ConfirmSettings :=
  ⟨KeyStore.ofSettings (some "k1:read,write") false, "enforce", "https://id.example",
    fun _ ↦ some fun name ↦ if name = "email" then some "ü@example.org" else none⟩

/-- The request of that person to recover a task. -/
private def confirmRequest : Confirmation :=
  ⟨⟨none, some "k1"⟩, some "Bearer t", none,
    { kind := "recover", correlationKey := "1", targetService := "aifactory", method := "POST"
      endpoint := "/api/tasks/ai-7/recover", rationale := "Recover it." }⟩

end CFactory.Actions
