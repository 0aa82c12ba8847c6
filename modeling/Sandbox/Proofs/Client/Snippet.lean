import Sandbox.Proofs.Client.Actor
import Sandbox.Proofs.Client.Readiness

namespace Sandbox.Client

structure Snippet where
  generation : Nat
  id : CorrelationId
  code : String

def Effect.snippet? : Effect → Option Snippet
  | .posted generation ⟨id, .run code⟩ (.ok ()) => some ⟨generation, id, code⟩
  | _ => none

def Transition.snippets (t : Transition) : List Snippet := t.effects.filterMap Effect.snippet?

def snippets (past : List Transition) : List Snippet := past.flatMap Transition.snippets

@[simp] theorem snippets_append (past more : List Transition) :
    snippets (past ++ more) = snippets past ++ snippets more :=
  List.flatMap_append

@[simp] theorem snippets_singleton (t : Transition) : snippets [t] = t.snippets :=
  List.flatMap_singleton _ _

theorem teardown_snippets (s : State) : s.teardown.filterMap Effect.snippet? = [] := by
  rw [State.teardown]
  cases s.live <;> rfl

theorem Dispatch.ping_snippets {settings : Settings} {s s' : State} {caller : Nat}
    {awaited : Awaited} {budget : Duration} {effects : List Effect}
    (dispatch : Dispatch settings s caller awaited .ping budget effects s') :
    effects.filterMap Effect.snippet? = [] := by
  cases dispatch <;> rfl

inductive SnippetChange (settings : Settings) (t : Transition) : Prop
  | quiet (empty : t.snippets = [])
  | sent {caller : Nat} {code : String} {budgets : Option Budgets} {live : Live}
    (found : t.before.calls[caller]? = some ⟨.run code budgets, .admitted⟩)
    (held : t.before.live = some live) (ready : live.ready = true)
    (dispatches :
      t.Dispatches ⟨settings.ids t.before.issued, .run, caller⟩ live.generation)
    (snippets : t.snippets = [⟨live.generation, settings.ids t.before.issued, code⟩])

section
variable {settings : Settings} {s s' : State} {action : Action} {effects : List Effect}

theorem Change.snippets (change : Change settings s action effects s') :
    SnippetChange settings ⟨action, s, effects, s'⟩ := by
  cases change with
  | reset | crashed current => exact .quiet (teardown_snippets s)
  | dropped => exact .quiet (teardown_snippets s)
  | failed current found handshake => exact .quiet (teardown_snippets s)
  | overran found expired held run => exact .quiet (teardown_snippets s)
  | sent found ready dispatch =>
    cases dispatch with
    | @registered live held =>
      rw [State.isReady, held] at ready
      refine .sent found held ready ⟨rfl, congrArg _ held, ?_⟩ rfl
      exact ⟨_, _, setPhase_found (s := { s with issued := _, pending := _ }) found _, rfl,
        List.mem_singleton_self _⟩
    | unposted held cause => exact .quiet rfl
  | pinged provision unready dispatch =>
    refine .quiet ?_
    rw [Transition.snippets, List.filterMap_append, dispatch.ping_snippets, List.append_nil]
    cases provision <;> rfl
  | _ => exact .quiet rfl

theorem Change.registers_run (change : Change settings s action effects s') {record : Record}
    (new : record ∈ (Transition.mk action s effects s').registered) (run : record.awaited = .run) :
    record.id = settings.ids s.issued ∧
      ∃ code budgets, s.calls[record.caller]? = some ⟨.run code budgets, .admitted⟩ := by
  obtain ⟨held, absent⟩ := List.mem_filter.mp new
  cases change.table with
  | reduced shorter issued => exact absurd (shorter.mem held) (by simpa using absent)
  | @added other generation dispatches id issued =>
    obtain rfl : record = other := by
      have known := dispatches.pending ▸ held
      rcases List.mem_cons.mp known with same | old
      · exact same
      · exact absurd old (by simpa using absent)
    obtain ⟨⟨ask, phase⟩, kind, found, request, posted⟩ := dispatches.asked
    rw [run] at request
    cases ask with
    | ready budget => cases request
    | run code budgets =>
      cases request
      have snippet : Snippet.mk generation record.id code ∈
          (Transition.mk action s effects s').snippets :=
        List.mem_filterMap.mpr ⟨_, posted, rfl⟩
      cases change.snippets with
      | quiet empty => simp [empty] at snippet
      | sent found' held' ready dispatches' snippets =>
        obtain ⟨rfl, -⟩ := List.cons.inj (dispatches.pending.symm.trans dispatches'.pending)
        exact ⟨rfl, _, _, found'⟩

end

theorem resolution_run_ne_admitted {ask : Ask} {reply : Except Failure Reply} :
    resolution ask .run reply ≠ .admitted := by
  rcases reply with cause | _ | streams <;> exact nofun

section
variable {settings : Settings} {past : List Transition} {s : State}

theorem Course.run_once (course : Course settings past s)
    (distinct : Function.Injective settings.ids) {a b : Record} (known : a ∈ registrations past)
    (known' : b ∈ registrations past) (run : a.awaited = .run) (run' : b.awaited = .run)
    (same : a.caller = b.caller) : a = b := by
  induction course with
  | start => simp [registrations] at known
  | @extend past s s' action effects earlier change ih =>
    -- An admitted run has no record of its own yet.
    have fresh : ∀ old ∈ registrations past, old.awaited = .run →
        ∀ new ∈ (Transition.mk action s effects s').registered, new.awaited = .run →
        old.caller ≠ new.caller := by
      intro old registered was_run new now is_run same
      obtain ⟨-, code, budgets, admitted⟩ := change.registers_run now is_run
      rcases (earlier.linked distinct).fates old registered with
        held | ⟨removal, removed, rfl, call, found, follows⟩
      · exact (earlier.linked distinct).not_pending admitted (fun _ owed => by cases owed) held same
      · rw [same, admitted] at found
        cases found
        cases follows with
        | admitted leads =>
          rw [was_run] at leads
          exact resolution_run_ne_admitted leads
    rw [registrations_append, registrations_singleton] at known known'
    rcases List.mem_append.mp known with old | new <;>
      rcases List.mem_append.mp known' with old' | new'
    · exact ih old old'
    · exact absurd same (fresh a old run b new' run')
    · exact absurd same.symm (fresh b old' run' a new run)
    · have orderly := (earlier.extend change).orderly distinct
      refine orderly.eq_of_id (by simp [new]) (by simp [new']) ?_
      rw [(change.registers_run new run).1, (change.registers_run new' run').1]

structure Snippet.Of (snippet : Snippet) (past : List Transition) (s : State) (record : Record) :
    Prop where
  registered : record ∈ registrations past
  id : record.id = snippet.id
  run : record.awaited = .run
  dispatched : DispatchedOn past record snippet.generation
  asked : ∃ budgets phase, s.calls[record.caller]? = some ⟨.run snippet.code budgets, phase⟩
  ready : ∃ t ∈ past, ∃ id, t.action = .event snippet.generation (.response ⟨id, .ready⟩)

theorem Course.snippet (course : Course settings past s)
    (distinct : Function.Injective settings.ids) {snippet : Snippet}
    (posted : snippet ∈ snippets past) : ∃ record, snippet.Of past s record := by
  induction course with
  | start => simp [snippets] at posted
  | @extend past s s' action effects earlier change ih =>
    rw [snippets_append, snippets_singleton] at posted
    rcases List.mem_append.mp posted with before | now
    · obtain ⟨record, of⟩ := ih before
      obtain ⟨budgets, phase, found⟩ := of.asked
      obtain ⟨phase', after⟩ := change.asks found
      obtain ⟨t, member, said⟩ := of.ready
      refine ⟨record, ?_, of.id, of.run, of.dispatched.mono _, ⟨budgets, phase', after⟩, t,
        List.mem_append_left _ member, said⟩
      rw [registrations_append]
      exact List.mem_append_left _ of.registered
    · cases change.snippets with
      | quiet empty => simp [empty] at now
      | sent found held ready dispatches snippets =>
        rw [snippets] at now
        obtain rfl := List.mem_singleton.mp now
        have last : ⟨action, s, effects, s'⟩ ∈ past ++ [⟨action, s, effects, s'⟩] :=
          List.mem_append_right _ (List.mem_singleton_self _)
        obtain ⟨phase', after⟩ := change.asks found
        obtain ⟨t, member, said⟩ := (earlier.readied held ready).said
        refine ⟨_, ?_, rfl, rfl, ⟨_, last, dispatches⟩, ⟨_, phase', after⟩, t,
          List.mem_append_left _ member, said⟩
        exact List.mem_flatMap.mpr
          ⟨_, last, (earlier.extend change).registers distinct last dispatches⟩

theorem DispatchedOn.snippet {record : Record} {generation : Nat}
    (dispatched : DispatchedOn past record generation) (run : record.awaited = .run) :
    ∃ code, ⟨generation, record.id, code⟩ ∈ snippets past := by
  obtain ⟨t, member, dispatches⟩ := dispatched
  obtain ⟨⟨ask, phase⟩, kind, found, request, posted⟩ := dispatches.asked
  rw [run] at request
  cases ask with
  | ready budget => cases request
  | run code budgets =>
    cases request
    exact ⟨code, List.mem_flatMap.mpr ⟨t, member, List.mem_filterMap.mpr ⟨_, posted, rfl⟩⟩⟩

theorem Course.snippets_once (course : Course settings past s)
    (distinct : Function.Injective settings.ids) : ((snippets past).map Snippet.id).Nodup := by
  induction course with
  | start => simp [snippets]
  | extend earlier change ih =>
    rw [snippets_append, snippets_singleton, List.map_append]
    refine List.nodup_append.mpr ⟨ih, ?_, ?_⟩
    · cases change.snippets with
      | quiet empty => simp [empty]
      | sent found held ready dispatches snippets => simp [snippets]
    · intro old before new now same
      obtain ⟨snippet, posted, rfl⟩ := List.mem_map.mp before
      obtain ⟨record, of⟩ := earlier.snippet distinct posted
      obtain ⟨snippet', posted', rfl⟩ := List.mem_map.mp now
      cases change.snippets with
      | quiet empty => simp [empty] at posted'
      | sent found held ready dispatches snippets =>
        rw [snippets] at posted'
        obtain rfl := List.mem_singleton.mp posted'
        exact (earlier.orderly distinct).fresh distinct of.registered (of.id.trans same)

end

def Effect.sentTo? (generation : Nat) : Effect → Option Request
  | .posted g request (.ok ()) => if g = generation then some request else none
  | _ => none

def sentTo (effects : List Effect) (generation : Nat) : List Request :=
  effects.filterMap (Effect.sentTo? generation)

@[simp] theorem sentTo_append (effects more : List Effect) (generation : Nat) :
    sentTo (effects ++ more) generation = sentTo effects generation ++ sentTo more generation :=
  List.filterMap_append

theorem sentTo_posted (target : Nat) (request : Request) (generation : Nat) :
    sentTo [.posted target request (.ok ())] generation =
      if target = generation then [request] else [] := by
  by_cases same : target = generation <;> simp [sentTo, Effect.sentTo?, same]

def snippetId? (request : Request) : Option CorrelationId :=
  match request.kind with
  | .ping => none
  | .run _ => some request.id

theorem snippet_of_sentTo {effects : List Effect} {generation : Nat} {id : CorrelationId}
    {code : String} (sent : ⟨id, .run code⟩ ∈ sentTo effects generation) :
    ⟨generation, id, code⟩ ∈ effects.filterMap Effect.snippet? := by
  obtain ⟨effect, member, eq⟩ := List.mem_filterMap.mp sent
  refine List.mem_filterMap.mpr ⟨effect, member, ?_⟩
  rcases effect with _ | ⟨g, request, _ | _⟩ | _
  · cases eq
  · cases eq
  · simp only [Effect.sentTo?, Option.ite_none_right_eq_some, Option.some.injEq] at eq
    obtain ⟨rfl, rfl⟩ := eq
    rfl
  · cases eq

theorem sentTo_snippets (effects : List Effect) (generation : Nat) :
    ((sentTo effects generation).filterMap snippetId?).Sublist
      ((effects.filterMap Effect.snippet?).map Snippet.id) := by
  induction effects with
  | nil => exact .slnil
  | cons effect rest ih =>
    rw [← List.singleton_append, sentTo_append, List.filterMap_append, List.filterMap_append,
      List.map_append]
    refine List.Sublist.append ?_ ih
    rcases effect with _ | ⟨g, ⟨id, _ | code⟩, _ | ⟨⟨⟩⟩⟩ | _
    case cons.posted.ping.ok | cons.posted.run.ok =>
      rw [sentTo_posted]
      split <;> simp [snippetId?, Effect.snippet?, List.filterMap_cons]
    all_goals exact .slnil

end Sandbox.Client
