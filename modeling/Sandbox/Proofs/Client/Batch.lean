import Sandbox.Proofs.Client.Isolation

namespace Sandbox.Client

/-! ## One response -/

def Harmless (s : State) (response : Response) : Prop :=
  ∀ record, s.record? response.id = some record → record.awaited = .handshake →
    ∀ message, response.kind ≠ .failure message

def Readies (s : State) (response : Response) : Prop :=
  ∃ record, s.record? response.id = some record ∧ record.awaited = .handshake ∧
    response.kind = .ready

def Tells (s : State) (response : Response) (caller : Nat) (reply : Except Failure Reply) : Prop :=
  ∃ record, s.record? response.id = some record ∧ record.caller = caller ∧
    answer record.awaited response.kind = reply

def State.hear (s : State) (response : Response) : State :=
  match s.record? response.id with
  | none => s
  | some record =>
    { s.removeRecord response.id with
      live := s.live.map (Live.told record.awaited response.kind) }.settle record.caller
        (answer record.awaited response.kind)

section
variable {σ : Type} (contexts : Contexts σ) (settings : Settings) {s : State} {response : Response}

theorem step_hear {generation : Nat} (current : s.current? = some generation)
    (harmless : Harmless s response) (w : σ) :
    step contexts settings (s, w) (.event generation (.response response)) =
      (s.hear response, w) := by
  obtain ⟨id, kind⟩ := response
  rw [State.current?] at current
  simp only [step, onEvent, if_pos current, onResponse, State.hear]
  cases found : s.record? id with
  | none => rfl
  | some record =>
    obtain ⟨id', awaited, caller⟩ := record
    have unchanged (other : ¬(awaited = .handshake ∧ kind = .ready)) :
        s.live.map (Live.told awaited kind) = s.live := by
      rw [Live.told_of_ne other]
      exact Option.map_id'
    cases awaited with
    | handshake =>
      cases kind with
      | ready => rfl
      | result stdout stderr =>
        dsimp only
        rw [unchanged (by simp)]
        rfl
      | failure message => exact absurd rfl (harmless _ found rfl message)
    | run =>
      dsimp only
      rw [unchanged (by simp)]
      cases kind <;> rfl

theorem hear_of_found {record : Record} (found : s.record? response.id = some record) :
    s.hear response = { s with
      pending := s.pending.filter (·.id ≠ response.id)
      live := s.live.map (Live.told record.awaited response.kind)
      calls := s.calls.modify record.caller
        (Call.given (answer record.awaited response.kind)) } := by
  rw [State.hear, found]
  exact State.settle_eq _ _ _

theorem hear_of_unknown (unknown : s.record? response.id = none) : s.hear response = s := by
  rw [State.hear, unknown]

theorem hear_pending (s : State) (response : Response) :
    (s.hear response).pending = s.pending.filter (·.id ≠ response.id) := by
  cases found : s.record? response.id with
  | none =>
    rw [hear_of_unknown found]
    exact (List.filter_eq_self.mpr (by simpa [State.record?] using found)).symm
  | some record => rw [hear_of_found found]

theorem hear_current (s : State) (response : Response) :
    (s.hear response).current? = s.current? := by
  cases found : s.record? response.id with
  | none => rw [hear_of_unknown found]
  | some record =>
    rw [hear_of_found found]
    simp [State.current?, Function.comp_def]

theorem hear_record? {id : CorrelationId} (other : id ≠ response.id) :
    (s.hear response).record? id = s.record? id := by
  rw [State.record?, hear_pending, List.find?_filter, State.record?]
  congr 1
  funext record
  by_cases same : record.id = id
  · simp [same, other]
  · simp [same]

theorem hear_ready {generation : Nat} (current : s.current? = some generation) :
    (s.hear response).isReady = true ↔ s.isReady = true ∨ Readies s response := by
  obtain ⟨live, held, -⟩ := Option.map_eq_some_iff.mp current
  cases found : s.record? response.id with
  | none => simp [hear_of_unknown found, Readies, found]
  | some record =>
    rw [hear_of_found found]
    by_cases readies : record.awaited = .handshake ∧ response.kind = .ready
    · simp [Readies, found, readies, State.isReady, held, Live.told]
    · rw [Live.told_of_ne readies]
      simp [Readies, found, readies, State.isReady]

theorem hear_told {caller : Nat} {reply : Except Failure Reply}
    (tells : Tells s response caller reply) :
    (s.hear response).calls[caller]? = s.calls[caller]?.map (Call.given reply) := by
  obtain ⟨record, found, rfl, rfl⟩ := tells
  rw [hear_of_found found]
  simp

theorem hear_untold {caller : Nat} (silent : ∀ reply, ¬Tells s response caller reply) :
    (s.hear response).calls[caller]? = s.calls[caller]? := by
  cases found : s.record? response.id with
  | none => rw [hear_of_unknown found]
  | some record =>
    have other : record.caller ≠ caller := fun same => silent _ ⟨record, found, same, rfl⟩
    rw [hear_of_found found]
    exact List.getElem?_modify_ne _ _ other

end

/-! ## A batch of responses -/

/-- What a batch does to a client. The order of the batch plays no part in it. -/
structure Heard (s : State) (batch : List Response) (s' : State) : Prop where
  pending : s'.pending = s.pending.filter (·.id ∉ batch.map Response.id)
  current : s'.current? = s.current?
  ready : s'.isReady = true ↔ s.isReady = true ∨ ∃ response ∈ batch, Readies s response
  told : ∀ response ∈ batch, ∀ (caller : Nat) (reply : Except Failure Reply),
    Tells s response caller reply → s'.calls[caller]? = s.calls[caller]?.map (Call.given reply)
  untold : ∀ caller : Nat, (∀ response ∈ batch, ∀ reply, ¬Tells s response caller reply) →
    s'.calls[caller]? = s.calls[caller]?
  rest : s' = { s with live := s'.live, pending := s'.pending, calls := s'.calls }

section
variable {s s' : State} {response : Response} {batch batch' : List Response}

theorem Heard.perm (heard : Heard s batch s') (perm : batch.Perm batch') : Heard s batch' s' := by
  have members (r : Response) : r ∈ batch' ↔ r ∈ batch := perm.mem_iff.symm
  obtain ⟨pending, current, ready, told, untold, rest⟩ := heard
  refine ⟨?_, current, ?_, ?_, ?_, rest⟩
  · simpa [members] using pending
  · simpa [members] using ready
  · simpa [members] using told
  · simpa [members] using untold

theorem live_ext {a b : Option Live} (current : a.map Live.generation = b.map Live.generation)
    (ready : a.any Live.ready = b.any Live.ready) : a = b := by
  cases a <;> cases b
  · rfl
  · simp at current
  · simp at current
  · rename_i a b
    cases a
    cases b
    simp_all

theorem Heard.unique {first second : State} (heard : Heard s batch first)
    (heard' : Heard s batch second) : first = second := by
  have live : first.live = second.live := by
    apply live_ext
    · exact heard.current.trans heard'.current.symm
    · exact Bool.eq_iff_iff.mpr (heard.ready.trans heard'.ready.symm)
  have calls : first.calls = second.calls := by
    apply List.ext_getElem?
    intro caller
    by_cases tells : ∃ response ∈ batch, ∃ reply, Tells s response caller reply
    · obtain ⟨response, member, reply, tells⟩ := tells
      rw [heard.told response member caller reply tells,
        heard'.told response member caller reply tells]
    · have silent : ∀ response ∈ batch, ∀ reply, ¬Tells s response caller reply :=
        fun response member reply told => tells ⟨response, member, reply, told⟩
      rw [heard.untold caller silent, heard'.untold caller silent]
  rw [heard.rest, heard'.rest, live, heard.pending, heard'.pending, calls]

theorem Tells.apart {other : Response} {caller : Nat} {reply reply' : Except Failure Reply}
    (tells : Tells s response caller reply) (callers : (s.pending.map Record.caller).Nodup)
    (different : other.id ≠ response.id) : ¬Tells s other caller reply' := by
  obtain ⟨record, found, own, -⟩ := tells
  rintro ⟨record', found', own', -⟩
  obtain ⟨held, id⟩ := mem_of_record? found
  obtain ⟨held', id'⟩ := mem_of_record? found'
  have same : record' = record := List.inj_on_of_nodup_map callers held' held (own'.trans own.symm)
  rw [same, id] at id'
  exact different id'.symm

theorem Heard.cons (heard : Heard (s.hear response) batch s') {generation : Nat}
    (current : s.current? = some generation) (callers : (s.pending.map Record.caller).Nodup)
    (different : ∀ other ∈ batch, other.id ≠ response.id) : Heard s (response :: batch) s' := by
  have unmoved : ∀ other ∈ batch, (s.hear response).record? other.id = s.record? other.id :=
    fun other member => hear_record? (different other member)
  have tells : ∀ other ∈ batch, ∀ (caller : Nat) (reply : Except Failure Reply),
      Tells (s.hear response) other caller reply ↔ Tells s other caller reply := by
    intro other member caller reply
    rw [Tells, unmoved other member, Tells]
  constructor
  case pending =>
    rw [heard.pending, hear_pending, List.filter_filter]
    congr 1
    funext record
    by_cases among : record.id ∈ batch.map Response.id <;>
      by_cases same : record.id = response.id <;> simp [-List.mem_map, among, same]
  case current => exact heard.current.trans (hear_current _ _)
  case ready =>
    have readies : (∃ other ∈ batch, Readies (s.hear response) other) ↔
        ∃ other ∈ batch, Readies s other := by
      refine exists_congr fun other => and_congr_right fun member => ?_
      rw [Readies, unmoved other member, Readies]
    rw [heard.ready, readies, hear_ready current, or_assoc]
    simp
  case told =>
    intro other member caller reply told
    rcases List.mem_cons.mp member with rfl | later
    · rw [heard.untold, hear_told told]
      intro another later reply' told'
      exact told.apart callers (different another later) ((tells another later _ _).mp told')
    · rw [heard.told other later caller reply ((tells other later _ _).mpr told), hear_untold]
      exact fun reply' => told.apart callers (different other later).symm
  case untold =>
    intro caller silent
    obtain ⟨first, others⟩ := List.forall_mem_cons.mp silent
    rw [heard.untold, hear_untold first]
    intro other later reply told
    exact others other later reply ((tells other later _ _).mp told)
  case rest =>
    rw [heard.rest]
    cases found : s.record? response.id with
    | none => rw [hear_of_unknown found]
    | some record => rw [hear_of_found found]

theorem heard_all {generation : Nat} (current : s.current? = some generation)
    (callers : (s.pending.map Record.caller).Nodup) (ids : (batch.map Response.id).Nodup) :
    Heard s batch (batch.foldl State.hear s) := by
  induction batch generalizing s with
  | nil => exact ⟨by simp, rfl, by simp, by simp, by simp, rfl⟩
  | cons response batch ih =>
    obtain ⟨new, ids⟩ := List.nodup_cons.mp ids
    have current' := (hear_current s response).trans current
    have callers' : ((s.hear response).pending.map Record.caller).Nodup := by
      rw [hear_pending]
      exact callers.sublist (List.filter_sublist.map _)
    refine (ih current' callers' ids).cons current callers ?_
    rintro other member same
    exact new (same ▸ List.mem_map_of_mem member)

end

def deliveries (generation : Nat) (batch : List Response) : List Action :=
  batch.map fun response => .event generation (.response response)

theorem run_deliveries {σ : Type} (contexts : Contexts σ) (settings : Settings) {s : State} (w : σ)
    {generation : Nat} {batch : List Response} (current : s.current? = some generation)
    (harmless : ∀ response ∈ batch, Harmless s response) :
    run contexts settings (s, w) (deliveries generation batch) = (batch.foldl State.hear s, w) := by
  induction batch generalizing s with
  | nil => rfl
  | cons response batch ih =>
    obtain ⟨first, others⟩ := List.forall_mem_cons.mp harmless
    change run contexts settings (step contexts settings (s, w) _) (deliveries generation batch) = _
    rw [step_hear contexts settings current first]
    apply ih
    · exact (hear_current _ _).trans current
    · intro other member record found
      apply others other member record
      by_cases same : other.id = response.id
      · obtain ⟨held, id⟩ := mem_of_record? found
        rw [hear_pending] at held
        simp [id, same] at held
      · exact (hear_record? same).symm.trans found

/-- If ids are never issued twice: in every run, whatever responses the live context sends with
nothing in between, as long as none fails a pending handshake and no two have the same id, the
client, its table, its context and all its calls end up the same in whichever order they arrive. -/
theorem responses_match_in_any_order {σ : Type} (contexts : Contexts σ) (settings : Settings)
    (distinct : Function.Injective settings.ids) (w : σ) (actions : List Action)
    {generation : Nat}
    (current : (run contexts settings ({}, w) actions).1.current? = some generation)
    (batch : List Response) (ids : (batch.map Response.id).Nodup)
    (harmless : ∀ response ∈ batch, Harmless (run contexts settings ({}, w) actions).1 response) :
    ∃ heard, Heard (run contexts settings ({}, w) actions).1 batch heard ∧
      ∀ batch', batch.Perm batch' →
        run contexts settings ({}, w) (actions ++ deliveries generation batch') =
          (heard, (run contexts settings ({}, w) actions).2) := by
  have course := course_of_run contexts settings w actions
  have linked := course.linked distinct
  have heard := heard_all current linked.callers ids
  refine ⟨_, heard, ?_⟩
  intro batch' perm
  have ids' : (batch'.map Response.id).Nodup := (perm.map _).nodup_iff.mp ids
  have heard' := (heard_all current linked.callers ids').perm perm.symm
  have delivered := run_deliveries contexts settings
    (run contexts settings ({}, w) actions).2 current
    (fun response member => harmless response (perm.mem_iff.mpr member))
  rw [run_append, heard.unique heard']
  exact delivered

def audience : List Action := [.begin (.ready ⟨1⟩), .begin (.ready ⟨1⟩)]

def medley : List Response :=
  [⟨counted.ids 1, .ready⟩, ⟨⟨"?"⟩, .failure "lost"⟩, ⟨counted.ids 0, .result "a" "b"⟩]

theorem responses_match_in_any_order_medley :
    (run willing counted ({}, ()) audience).1.current? = some 1 ∧
    (medley.map Response.id).Nodup ∧
    (∀ response ∈ medley, Harmless (run willing counted ({}, ()) audience).1 response) ∧
    ∃ heard, Heard (run willing counted ({}, ()) audience).1 medley heard ∧
      heard.isReady = true ∧ heard.pending = [] ∧
      run willing counted ({}, ()) (audience ++ deliveries 1 medley) = (heard, ()) ∧
      run willing counted ({}, ()) (audience ++ deliveries 1 medley.reverse) = (heard, ()) := by
  have current : (run willing counted ({}, ()) audience).1.current? = some 1 := rfl
  have ids : (medley.map Response.id).Nodup := by decide
  have harmless : ∀ response ∈ medley,
      Harmless (run willing counted ({}, ()) audience).1 response := by
    intro response member record found handshake message same
    simp only [medley, List.mem_cons, List.not_mem_nil, or_false] at member
    rcases member with rfl | rfl | rfl
    · exact nomatch same
    · exact nomatch found
    · exact nomatch same
  obtain ⟨heard, effect, reached⟩ := responses_match_in_any_order willing counted counted_injective
    () audience current medley ids harmless
  have forward : run willing counted ({}, ()) (audience ++ deliveries 1 medley) = (heard, ()) :=
    reached medley (.refl _)
  obtain rfl := congrArg Prod.fst forward
  exact ⟨current, ids, harmless, _, effect, rfl, rfl, forward, reached _ (List.reverse_perm _).symm⟩

end Sandbox.Client
