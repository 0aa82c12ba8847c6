import Sandbox.Proofs.Client.Readiness

namespace Sandbox.Client

/-! ## What contexts are posted -/

def Effect.postTo? (generation : Nat) : Effect → Option Request
  | .posted target request _ => if target = generation then some request else none
  | _ => none

def postsTo (effects : List Effect) (generation : Nat) : List Request :=
  effects.filterMap (Effect.postTo? generation)

@[simp] theorem postsTo_append (effects more : List Effect) (generation : Nat) :
    postsTo (effects ++ more) generation = postsTo effects generation ++ postsTo more generation :=
  List.filterMap_append

@[simp] theorem opened_append (effects more : List Effect) :
    opened (effects ++ more) = opened effects ++ opened more :=
  List.filterMap_append

theorem mem_postsTo {effects : List Effect} {generation : Nat} {request : Request} :
    request ∈ postsTo effects generation ↔
      ∃ result, .posted generation request result ∈ effects := by
  rw [postsTo, List.mem_filterMap]
  constructor
  · rintro ⟨_ | ⟨target, request', result⟩ | _, done, posted⟩
    · cases posted
    · obtain ⟨rfl, same⟩ := Option.ite_none_right_eq_some.mp posted
      exact ⟨result, Option.some.inj same ▸ done⟩
    · cases posted
  · rintro ⟨result, posted⟩
    exact ⟨_, posted, if_pos rfl⟩

theorem postsTo_posted (target : Nat) (request : Request) (result : Except Failure Unit)
    (rest : List Effect) (generation : Nat) :
    postsTo (.posted target request result :: rest) generation =
      (if target = generation then [request] else []) ++ postsTo rest generation := by
  by_cases same : target = generation <;> simp [postsTo, Effect.postTo?, same]

theorem teardown_posts (s : State) (generation : Nat) :
    opened s.teardown = [] ∧ postsTo s.teardown generation = [] := by
  rw [State.teardown]
  cases s.live <;> exact ⟨rfl, rfl⟩

/-- What an action posts: nothing, one request to the live context, a ping while that is not ready
and a snippet after that, or the warm-up to a context that it creates, and then perhaps a ping. -/
inductive Posting (settings : Settings) (s : State) (effects : List Effect) (s' : State) : Prop
  | quiet (opened : opened effects = []) (posts : ∀ generation, postsTo effects generation = [])
    (issued : s.issued ≤ s'.issued)
  | request {live : Live} {kind : Request.Kind} (held : s.live = some live)
    (opened : opened effects = [])
    (posts : ∀ generation, postsTo effects generation =
      if live.generation = generation then [⟨settings.ids s.issued, kind⟩] else [])
    (issued : s'.issued = s.issued + 1)
    (fits : live.ready = false ∧ kind = .ping ∨ live.ready = true ∧ ∃ code, kind = .run code)
  | opening {pings : List Nat} (opened : opened effects = [s.generation + 1])
    (posts : ∀ generation, postsTo effects generation =
      if s.generation + 1 = generation then
        ⟨.warmup, .ping⟩ :: pings.map fun n => ⟨settings.ids n, .ping⟩ else [])
    (fresh : pings.Sublist [s.issued]) (issued : s.issued + pings.length ≤ s'.issued)

section
variable {settings : Settings} {s s' : State} {action : Action} {effects : List Effect}

theorem Dispatch.posting {caller : Nat} {awaited : Awaited} {kind : Request.Kind}
    {budget : Duration}
    (dispatch : Dispatch settings s caller awaited kind budget effects s') :
    ∃ live, s.live = some live ∧ opened effects = [] ∧ s'.issued = s.issued + 1 ∧
      ∀ generation, postsTo effects generation =
        if live.generation = generation then [⟨settings.ids s.issued, kind⟩] else [] := by
  cases dispatch with
  | @registered live held =>
    refine ⟨live, held, rfl, rfl, fun generation => ?_⟩
    rw [postsTo_posted]
    exact List.append_nil _
  | @unposted live held cause =>
    refine ⟨live, held, rfl, cleared_issued _, fun generation => ?_⟩
    rw [postsTo_posted]
    exact List.append_nil _

theorem Change.posting (change : Change settings s action effects s') :
    Posting settings s effects s' := by
  have torn : s.issued ≤ s'.issued → effects = s.teardown → Posting settings s effects s' := by
    rintro issued rfl
    exact .quiet (teardown_posts s 0).1 (fun generation => (teardown_posts s generation).2) issued
  cases change with
  | reset | crashed current => exact torn (Nat.le_of_eq (cleared_issued s).symm) rfl
  | dropped => exact torn (Nat.le_of_eq (cleared_issued s).symm) rfl
  | failed current found handshake =>
    refine torn (Nat.le_of_eq ?_) rfl
    rw [cleared_issued, State.settle_eq]
    rfl
  | overran found expired held run =>
    exact torn (Nat.le_of_eq (cleared_issued (s.removeRecord _)).symm) rfl
  | answered current found survives =>
    refine .quiet rfl (fun _ => rfl) (Nat.le_of_eq ?_)
    rw [State.settle_eq]
    rfl
  | sent found ready dispatch =>
    obtain ⟨live, held, opened, issued, posts⟩ := dispatch.posting
    rw [State.isReady, held] at ready
    exact .request held opened posts issued (.inr ⟨ready, _, rfl⟩)
  | uncreated absent cause => exact .quiet rfl (fun _ => rfl) (Nat.le_refl _)
  | unwarmed absent cause =>
    refine @Posting.opening _ _ _ _ [] rfl (fun generation => ?_) (List.nil_sublist _) (Nat.le_refl _)
    change postsTo (.posted _ _ _ :: [.destroyed _]) generation = _
    rw [postsTo_posted]
    exact List.append_nil _
  | pinged provision unready dispatch =>
    obtain ⟨live, held, opened, issued, posts⟩ := dispatch.posting
    rw [State.isReady, held] at unready
    cases provision with
    | kept _ => exact .request held opened posts issued (.inl ⟨unready, rfl⟩)
    | fresh absent =>
      obtain rfl := Option.some.inj held
      refine @Posting.opening _ _ _ _ [s.issued] ?_ (fun generation => ?_) (.refl _)
        (Nat.le_of_eq issued.symm)
      · rw [opened_append, opened]
        rfl
      · rw [postsTo_append, posts]
        change postsTo (.posted _ _ _ :: []) generation ++ _ = _
        rw [postsTo_posted]
        by_cases same : s.generation + 1 = generation <;> simp [State.opened, same, postsTo]
  | _ => exact .quiet rfl (fun _ => rfl) (Nat.le_refl _)

theorem Posting.run_to_ready (posting : Posting settings s effects s') {generation : Nat}
    {id : CorrelationId} {code : String} {result : Except Failure Unit}
    (posted : .posted generation ⟨id, .run code⟩ result ∈ effects) :
    s.live = some ⟨generation, true⟩ := by
  have member := mem_postsTo.mpr ⟨result, posted⟩
  cases posting with
  | quiet opened posts issued => simp [posts] at member
  | @request live kind held opened posts issued fits =>
    rw [posts] at member
    split at member
    · rename_i same
      obtain ⟨-, rfl⟩ := Request.mk.inj (List.mem_singleton.mp member)
      obtain ⟨-, ping⟩ | ⟨ready, -⟩ := fits
      · cases ping
      · rw [held, ← same, ← ready]
    · cases member
  | opening opened posts fresh issued =>
    rw [posts] at member
    split at member <;> simp at member

end

/-! ## Posts over a course -/

/-- The warm-up comes first, then pings, then snippets, under ids whose serial numbers grow. -/
structure Posts (settings : Settings) (pings : List Nat) (runs : List (Nat × String))
    (requests : List Request) : Prop where
  requests : requests = ⟨.warmup, .ping⟩ :: (pings.map (fun n => ⟨settings.ids n, .ping⟩) ++
    runs.map fun run => ⟨settings.ids run.1, .run run.2⟩)
  serials : (pings ++ runs.map Prod.fst).Pairwise (· < ·)

namespace Posts

variable {settings : Settings} {pings : List Nat} {runs : List (Nat × String)}
  {requests : List Request}

theorem ping (posts : Posts settings pings [] requests) {serial : Nat}
    (fresh : ∀ n ∈ pings, n < serial) :
    Posts settings (pings ++ [serial]) [] (requests ++ [⟨settings.ids serial, .ping⟩]) := by
  refine ⟨by simp [posts.requests], ?_⟩
  have serials := posts.serials
  simp only [List.map_nil, List.append_nil] at serials ⊢
  exact List.pairwise_append.mpr ⟨serials, List.pairwise_singleton .., by simpa using fresh⟩

theorem run (posts : Posts settings pings runs requests) {serial : Nat} (code : String)
    (fresh : ∀ n ∈ pings ++ runs.map Prod.fst, n < serial) :
    Posts settings pings (runs ++ [(serial, code)])
      (requests ++ [⟨settings.ids serial, .run code⟩]) := by
  refine ⟨by simp [posts.requests], ?_⟩
  rw [List.map_append, ← List.append_assoc]
  refine List.pairwise_append.mpr ⟨posts.serials, List.pairwise_singleton .., ?_⟩
  intro n used m last
  obtain rfl := List.mem_singleton.mp last
  exact fresh n used

theorem distinct (posts : Posts settings pings runs requests)
    (injective : Function.Injective settings.ids) : (requests.tail.map Request.id).Nodup := by
  rw [posts.requests]
  have serials : ((pings ++ runs.map Prod.fst).map settings.ids).Nodup :=
    List.Nodup.map injective (posts.serials.imp Nat.ne_of_lt)
  simpa [Function.comp_def] using serials

end Posts

structure Courteous (settings : Settings) (s : State) (generation : Nat) (pings : List Nat)
    (runs : List (Nat × String)) (requests : List Request) : Prop where
  posts : Posts settings pings runs requests
  used : ∀ n ∈ pings ++ runs.map Prod.fst, n < s.issued
  gated : runs ≠ [] → s.current? = some generation → s.live = some ⟨generation, true⟩

theorem serials_grown {serials : List Nat} {issued issued' : Nat}
    (used : ∀ n ∈ serials, n < issued) (next : issued' = issued + 1) :
    ∀ n ∈ serials ++ [issued], n < issued' := by
  intro n now
  rcases List.mem_append.mp now with old | last
  · exact next ▸ Nat.lt_succ_of_lt (used n old)
  · obtain rfl := List.mem_singleton.mp last
    exact next ▸ Nat.lt_succ_self _

namespace Courteous

variable {settings : Settings} {s s' : State} {action : Action} {effects : List Effect}
  {generation : Nat} {pings : List Nat} {runs : List (Nat × String)} {requests : List Request}

theorem begin (fresh : pings.Sublist [s.issued]) (issued : s.issued + pings.length ≤ s'.issued) :
    Courteous settings s' generation pings []
      (⟨.warmup, .ping⟩ :: pings.map fun n => ⟨settings.ids n, .ping⟩) := by
  refine ⟨⟨by simp, ?_⟩, ?_, nofun⟩
  · simpa using (List.pairwise_singleton ..).sublist fresh
  · intro n now
    rw [List.map_nil, List.append_nil] at now
    obtain rfl := List.mem_singleton.mp (fresh.mem now)
    have := List.length_pos_of_mem now
    omega

theorem kept (courteous : Courteous settings s generation pings runs requests)
    (change : Change settings s action effects s') (known : generation ≤ s.generation)
    (issued : s.issued ≤ s'.issued) : Courteous settings s' generation pings runs requests := by
  refine ⟨courteous.posts, fun n used => Nat.lt_of_lt_of_le (courteous.used n used) issued, ?_⟩
  intro some current
  have held := courteous.gated some (change.current_before known current)
  exact change.stays_ready held rfl current

theorem ping {live : Live} (courteous : Courteous settings s live.generation pings runs requests)
    (held : s.live = some live) (unready : live.ready = false)
    (issued : s'.issued = s.issued + 1) :
    Courteous settings s' live.generation (pings ++ [s.issued]) []
      (requests ++ [⟨settings.ids s.issued, .ping⟩]) := by
  -- Readiness is never lost, so a context that is pinged was posted no snippets.
  obtain rfl : runs = [] := by
    by_contra some
    have ready := courteous.gated some (congrArg _ held)
    rw [held] at ready
    cases unready.symm.trans (congrArg Live.ready (Option.some.inj ready))
  have used : ∀ n ∈ pings, n < s.issued := by simpa using courteous.used
  refine ⟨courteous.posts.ping used, ?_, nofun⟩
  rw [List.map_nil, List.append_nil]
  exact serials_grown used issued

theorem run {live : Live} (courteous : Courteous settings s live.generation pings runs requests)
    (change : Change settings s action effects s') (held : s.live = some live)
    (ready : live.ready = true) (issued : s'.issued = s.issued + 1) (code : String) :
    Courteous settings s' live.generation pings (runs ++ [(s.issued, code)])
      (requests ++ [⟨settings.ids s.issued, .run code⟩]) := by
  refine ⟨courteous.posts.run code courteous.used, ?_, fun some current => ?_⟩
  · rw [List.map_append, ← List.append_assoc]
    exact serials_grown courteous.used issued
  · obtain ⟨generation, ready'⟩ := live
    obtain rfl : ready' = true := ready
    exact change.stays_ready held rfl current

end Courteous

section
variable {settings : Settings} {past : List Transition} {s : State}

theorem Course.opened_known (course : Course settings past s) {generation : Nat}
    (made : generation ∈ opened (past.flatMap Transition.effects)) :
    generation ≤ s.generation := by
  have created := (opened_sublist _).mem made
  rw [course.created, List.mem_range'_1] at created
  omega

theorem Course.unopened (course : Course settings past s) {generation : Nat}
    (absent : generation ∉ opened (past.flatMap Transition.effects)) :
    postsTo (past.flatMap Transition.effects) generation = [] := by
  rw [List.eq_nil_iff_forall_not_mem]
  intro request member
  obtain ⟨result, posted⟩ := mem_postsTo.mp member
  exact absent (course.custody.posted_to posted)

theorem Course.courteous (course : Course settings past s) {generation : Nat}
    (made : generation ∈ opened (past.flatMap Transition.effects)) :
    ∃ pings runs, Courteous settings s generation pings runs
      (postsTo (past.flatMap Transition.effects) generation) := by
  induction course with
  | start => cases made
  | @extend past s s' action effects earlier change ih =>
    rw [List.flatMap_append, List.flatMap_singleton] at made ⊢
    rw [opened_append] at made
    rw [postsTo_append]
    dsimp only at made ⊢
    cases change.posting with
    | quiet opened posts issued =>
      rw [opened, List.append_nil] at made
      obtain ⟨pings, runs, courteous⟩ := ih made
      rw [posts, List.append_nil]
      exact ⟨pings, runs, courteous.kept change (earlier.opened_known made) issued⟩
    | @request live kind held opened posts issued fits =>
      rw [opened, List.append_nil] at made
      obtain ⟨pings, runs, courteous⟩ := ih made
      have kept := courteous.kept change (earlier.opened_known made) (by omega)
      rw [posts]
      split
      · rename_i same
        subst same
        obtain ⟨unready, rfl⟩ | ⟨ready, code, rfl⟩ := fits
        · exact ⟨_, [], courteous.ping held unready issued⟩
        · exact ⟨pings, _, courteous.run change held ready issued code⟩
      · rw [List.append_nil]
        exact ⟨pings, runs, kept⟩
    | @opening pings opened posts fresh issued =>
      rw [posts]
      split
      · rename_i same
        subst same
        -- The counter was not so far yet, so nothing can have been posted to this context.
        have unknown : s.generation + 1 ∉ Client.opened (past.flatMap Transition.effects) := by
          intro known
          have := earlier.opened_known known
          omega
        rw [earlier.unopened unknown, List.nil_append]
        exact ⟨pings, [], .begin fresh issued⟩
      · rename_i other
        rw [opened, List.mem_append] at made
        replace made := made.resolve_right fun last => other (List.mem_singleton.mp last).symm
        obtain ⟨pings', runs, courteous⟩ := ih made
        rw [List.append_nil]
        exact ⟨pings', runs, courteous.kept change (earlier.opened_known made) (by omega)⟩

theorem Course.finished (course : Course settings past s) {before after : List Effect}
    {generation : Nat}
    (split : past.flatMap Transition.effects = before ++ .destroyed generation :: after) :
    postsTo after generation = [] := by
  have custody := course.custody
  have increasing := course.opened_increasing
  rw [split] at custody increasing
  obtain ⟨held, upto, onwards⟩ := custody.split
  cases onwards with
  | destroyed onwards =>
    have made : generation ∈ opened before := by
      have balance : opened before = _ := upto.balance
      rw [balance]
      exact List.mem_append_right _ (List.mem_singleton_self _)
    rw [List.eq_nil_iff_forall_not_mem]
    intro request member
    obtain ⟨result, posted⟩ := mem_postsTo.mp member
    have again : generation ∈ opened after := onwards.posted_to posted
    rw [opened_append] at increasing
    have apart := (List.pairwise_append.mp increasing).2.2
    exact Nat.lt_irrefl _ (apart generation made generation again)

end

/-! ## The gate -/

structure Gated (settings : Settings) (past : List Transition) (s : State) : Prop where
  sound : ∀ live, s.live = some live → live.ready = true → ReadiedOn past live.generation
  lasting : ∀ earlier t later, past = earlier ++ t :: later → ∀ live,
    t.before.live = some live → live.ready = true → s.current? = some live.generation →
    s.live = some live
  unopened : ∀ generation ∉ opened (past.flatMap Transition.effects),
    postsTo (past.flatMap Transition.effects) generation = []
  posts : ∀ generation ∈ opened (past.flatMap Transition.effects), ∃ pings runs,
    Posts settings pings runs (postsTo (past.flatMap Transition.effects) generation)
  distinct : Function.Injective settings.ids → ∀ generation,
    ((postsTo (past.flatMap Transition.effects) generation).tail.map Request.id).Nodup
  gated : ∀ earlier t later, past = earlier ++ t :: later → ∀ generation id code result,
    .posted generation ⟨id, .run code⟩ result ∈ t.effects →
    t.before.live = some ⟨generation, true⟩ ∧ ReadiedOn earlier generation
  finished : ∀ before after generation,
    past.flatMap Transition.effects = before ++ .destroyed generation :: after →
    postsTo after generation = []

/-- At every moment of every run, whatever contexts answer: a context counts as ready only once it
has answered a handshake of its own, and only then, and before its end, is it posted a snippet. -/
theorem readiness_gates_snippets {σ : Type} (contexts : Contexts σ) (settings : Settings) (w : σ)
    (actions : List Action) :
    Gated settings (trace contexts settings ({}, w) actions)
      (run contexts settings ({}, w) actions).1 := by
  have course := course_of_run contexts settings w actions
  refine ⟨fun live => course.readied, ?_, fun generation => course.unopened, ?_, ?_, ?_,
    fun before after generation => course.finished⟩
  · rintro earlier t later split live held ready
    rw [split] at course
    exact (course.still_ready held ready).2
  · intro generation made
    obtain ⟨pings, runs, courteous⟩ := course.courteous made
    exact ⟨pings, runs, courteous.posts⟩
  · intro injective generation
    by_cases made : generation ∈ opened ((trace contexts settings ({}, w) actions).flatMap
        Transition.effects)
    · obtain ⟨pings, runs, courteous⟩ := course.courteous made
      exact courteous.posts.distinct injective
    · rw [course.unopened made]
      exact List.nodup_nil
  · intro earlier t later split generation id code result posted
    rw [split] at course
    obtain ⟨before, change⟩ := course.split
    have ready := change.posting.run_to_ready posted
    exact ⟨ready, before.readied ready rfl⟩

def handshakeThenRun : List Action :=
  [.begin (.run "x" none), .event 1 (.response ⟨counted.ids 0, .ready⟩), .proceed 0, .proceed 0]

theorem readiness_gates_snippets_handshake :
    postsTo ((trace willing counted ({}, ()) handshakeThenRun).flatMap Transition.effects) 1 =
      [⟨.warmup, .ping⟩, ⟨counted.ids 0, .ping⟩, ⟨counted.ids 1, .run "x"⟩] ∧
    ReadiedOn (trace willing counted ({}, ()) handshakeThenRun) 1 ∧
    [counted.ids 0, counted.ids 1].Nodup := by
  have gate := readiness_gates_snippets willing counted () handshakeThenRun
  exact ⟨rfl, gate.sound ⟨1, true⟩ rfl rfl, gate.distinct counted_injective 1⟩

end Sandbox.Client
