/-
What a stream of events yields.

The callback of a stream and the function that unsubscribes it are its own, so nothing that others
call takes it away: each envelope of its run goes to its queue.  What it has yielded and what is in
its queue is what was published since it was started, and it is woken whenever it waits and
something is put in its queue.  So it yields everything, unless it is aborted or left.
-/
import OpenLagrange.Proofs.EventDelivery

namespace OpenLagrange.Delivery

variable {κ : Type} [DecidableEq κ] {s : Subscribers κ} {wanted : Subscribed κ}

/-! ### A stream -/

variable {mine : κ} {runId : String}

/-- Nobody else has the callback of the stream, or the function that unsubscribes it. -/
def Outside (mine : κ) (g : RunEventGenerator) : Call κ → Prop
  | .subscribe _ onEvent => onEvent ≠ mine
  | .unsubscribe n => g.unsubscribe ≠ some n
  | .publish _ reactions =>
      reactions mine = [] ∧ ∀ onEvent, ∀ n ∈ reactions onEvent, g.unsubscribe ≠ some n

def CleanStep (mine : κ) (s : Streaming κ) : StreamStep κ → Prop
  | .call c => CleanCall s.bus c ∧ Outside mine s.generator c
  | _ => True

def CleanSteps (mine : κ) : Streaming κ → List (StreamStep κ) → Prop
  | _, [] => True
  | s, step :: rest => CleanStep mine s step ∧ CleanSteps mine (s.step mine step) rest

/-- The envelope of the run that a step publishes. -/
def publishedOn (runId : String) : StreamStep κ → List RunEventEnvelope
  | .call (.publish envelope _) => if envelope.runId = runId then [envelope] else []
  | _ => []

/-- The function of the stream's subscription is the only one for its callback. -/
structure Listening (mine : κ) (bus : Subscribers κ) (runId : String) (n : Nat) : Prop where
  wanted : ∃ wanted, Kept bus wanted ∧ (runId, mine) ∈ wanted ∧
    ∀ runId', (runId', mine) ∈ wanted → runId' = runId
  sole : ∀ m f, bus.functions[m]? = some f → f.onEvent = mine → m = n

theorem functions_subscribe (s : Subscribers κ) (runId : String) (onEvent : κ) :
    ∃ set, (s.subscribeRunEvents runId onEvent).functions =
      s.functions ++ [⟨runId, onEvent, set⟩] := by
  cases hrun : s.subscribers runId with
  | some set => exact ⟨set, by rw [subscribe_known hrun]⟩
  | none => exact ⟨s.fresh, by rw [subscribe_first hrun]⟩

/-- The stream listens from its subscription on. -/
theorem listening_subscribe (h : Kept s wanted) (hnone : ∀ f ∈ s.functions, f.onEvent ≠ mine)
    (hwanted : ∀ runId', (runId', mine) ∉ wanted) :
    Listening mine (s.subscribeRunEvents runId mine) runId s.functions.length where
  wanted := by
    refine ⟨_, h.subscribe runId mine, Set.mem_insert _ _, ?_⟩
    intro runId' hmem
    rcases Set.mem_insert_iff.mp hmem with heq | hold
    · exact (Prod.mk.inj heq).1
    · exact absurd hold (hwanted runId')
  sole := by
    intro m f hf hmine
    obtain ⟨set, hfunctions⟩ := functions_subscribe s runId mine
    rw [hfunctions, List.getElem?_append] at hf
    split at hf
    · exact absurd hmine (hnone f (List.mem_of_getElem? hf))
    · have hlt := (List.getElem?_eq_some_iff.mp hf).1
      rw [List.length_singleton] at hlt
      omega

omit [DecidableEq κ] in
/-- Its callback stays subscribed whatever is called of the functions that others have. -/
theorem mem_unsubscribed_of_sole {functions : List (Subscription κ)} {n : Nat} {called : List Nat}
    (hwanted : (runId, mine) ∈ wanted)
    (hsole : ∀ m f, functions[m]? = some f → f.onEvent = mine → m = n) (hcalled : n ∉ called) :
    (runId, mine) ∈ unsubscribed functions wanted called := by
  refine ⟨hwanted, ?_⟩
  intro m hm f hf heq
  have hsame := hsole m f hf (Prod.mk.inj heq).2.symm
  exact hcalled (hsame ▸ hm)

theorem Listening.call {g : RunEventGenerator} {n : Nat} {c : Call κ}
    (h : Listening mine s runId n) (hg : g.unsubscribe = some n) (hclean : CleanCall s c)
    (houtside : Outside mine g c) : Listening mine (s.call c).2 runId n := by
  obtain ⟨⟨wanted, hkept, hmine, honly⟩, hsole⟩ := h
  have hafter := hkept.call hclean
  cases c with
  | subscribe runId' onEvent =>
      refine ⟨⟨_, hafter, Set.mem_insert_of_mem _ hmine, ?_⟩, ?_⟩
      · intro other hmem
        rcases Set.mem_insert_iff.mp hmem with heq | hold
        · exact absurd (Prod.mk.inj heq).2.symm houtside
        · exact honly other hold
      · intro m f hf hfmine
        obtain ⟨set, hfunctions⟩ := functions_subscribe s runId' onEvent
        have hf' : (s.functions ++ [⟨runId', onEvent, set⟩])[m]? = some f := hfunctions ▸ hf
        rw [List.getElem?_append] at hf'
        split at hf'
        · exact hsole m f hf' hfmine
        · rcases List.mem_singleton.mp (List.mem_of_getElem? hf') with rfl
          exact absurd hfmine houtside
  | unsubscribe m =>
      refine ⟨⟨_, hafter, ?_, fun other hmem => honly other hmem.1⟩, ?_⟩
      · refine mem_unsubscribed_of_sole hmine hsole ?_
        intro hmem
        exact houtside (hg.trans (congrArg some (List.mem_singleton.mp hmem)))
      · intro m' f hf
        exact hsole m' f (functions_unsubscribe s m ▸ hf)
  | publish envelope reactions =>
      obtain ⟨-, -, hfunctions⟩ := publish_delivered hkept envelope reactions hclean
      refine ⟨⟨_, hafter, ?_, fun other hmem => honly other hmem.1⟩, ?_⟩
      · refine mem_unsubscribed_of_sole hmine hsole ?_
        intro hmem
        obtain ⟨onEvent, -, hcalled⟩ := List.mem_flatMap.mp hmem
        exact houtside.2 onEvent n hcalled hg
      · intro m f hf
        exact hsole m f (hfunctions ▸ hf)

/-- The stream is given the envelopes of its run. -/
theorem Listening.delivered {g : RunEventGenerator} {n : Nat} {envelope : RunEventEnvelope}
    {reactions : κ → List Nat} (h : Listening mine s runId n) (hg : g.unsubscribe = some n)
    (hclean : CleanCall s (.publish envelope reactions))
    (houtside : Outside mine g (.publish envelope reactions)) :
    mine ∈ (s.publishRunEventEnvelope envelope reactions).1 ↔ envelope.runId = runId := by
  obtain ⟨⟨wanted, hkept, hmine, honly⟩, hsole⟩ := h
  obtain ⟨hdelivered, -, -⟩ := publish_delivered hkept envelope reactions hclean
  constructor
  · intro hmem
    obtain ⟨before, after, hsplit⟩ := List.append_of_mem hmem
    exact honly _ (hdelivered.subscribed before mine after hsplit).1
  · rintro rfl
    refine (hdelivered.every mine hmine).resolve_right ?_
    intro hout
    refine hout (mem_unsubscribed_of_sole hmine hsole ?_)
    intro hcalled
    obtain ⟨onEvent, -, hn⟩ := List.mem_flatMap.mp hcalled
    exact houtside.2 onEvent n hn hg

/-- A stream that was started: what it has yielded and what is left in its queue is what was
published; when it waits without having been woken, nothing is left. -/
structure Consuming (mine : κ) (runId : String) (published : List RunEventEnvelope)
    (s : Streaming κ) : Prop where
  run : s.generator.runId = runId
  listening : ∃ n, s.generator.unsubscribe = some n ∧ Listening mine s.bus runId n
  all : s.generator.yielded ++ s.generator.queue = published
  waiting : s.generator.phase = .waiting → s.generator.queue = []
  started : s.generator.phase ≠ .idle
  going : s.generator.phase ≠ .done

/-- And one that has ended has yielded the first of them. -/
structure Ended (left : Prop) (published : List RunEventEnvelope) (s : Streaming κ) : Prop where
  phase : s.generator.phase = .done
  first : s.generator.yielded <+: published
  why : s.generator.aborted = true ∨ left

def Streamed (mine : κ) (runId : String) (left : Prop) (published : List RunEventEnvelope)
    (s : Streaming κ) : Prop :=
  Consuming mine runId published s ∨ Ended left published s

variable {st : Streaming κ} {published : List RunEventEnvelope} {left : Prop}

theorem streamed_loop (hrun : st.generator.runId = runId)
    (hlistening : ∃ n, st.generator.unsubscribe = some n ∧ Listening mine st.bus runId n)
    (hall : st.generator.yielded ++ st.generator.queue = published) :
    Streamed mine runId left published st.loop := by
  unfold Streaming.loop
  by_cases haborted : st.generator.aborted = true
  · rw [if_pos haborted]
    exact Or.inr ⟨rfl, ⟨st.generator.queue, hall⟩, Or.inl haborted⟩
  · rw [if_neg haborted]
    refine Or.inl ?_
    cases hqueue : st.generator.queue with
    | nil =>
        rw [hqueue] at hall
        exact ⟨hrun, hlistening, by rw [← hall, hqueue], fun _ => hqueue, nofun, nofun⟩
    | cons item rest =>
        rw [hqueue] at hall
        refine ⟨hrun, hlistening, ?_, nofun, nofun, nofun⟩
        show st.generator.yielded ++ [item] ++ rest = published
        rw [List.append_assoc]
        exact hall

theorem Consuming.loop (h : Consuming mine runId published st) :
    Streamed mine runId left published st.loop :=
  streamed_loop h.run h.listening h.all

theorem step_publish (mine : κ) (st : Streaming κ) (envelope : RunEventEnvelope)
    (reactions : κ → List Nat) : st.step mine (.call (.publish envelope reactions)) =
      ⟨(st.bus.publishRunEventEnvelope envelope reactions).2,
        if mine ∈ (st.bus.publishRunEventEnvelope envelope reactions).1 then
          st.generator.onEvent envelope
        else st.generator⟩ := by
  by_cases hmem : mine ∈ (st.bus.publishRunEventEnvelope envelope reactions).1
  · rw [if_pos hmem]
    exact if_pos hmem
  · rw [if_neg hmem]
    exact if_neg hmem

/-- A call, while the stream is consumed. -/
theorem Consuming.call {c : Call κ} (h : Consuming mine runId published st)
    (hclean : CleanStep mine st (.call c)) :
    Consuming mine runId (published ++ publishedOn runId (.call c)) (st.step mine (.call c)) := by
  obtain ⟨n, hn, hlistening⟩ := h.listening
  have hafter := hlistening.call hn hclean.1 hclean.2
  cases c with
  | subscribe runId' onEvent =>
      rw [show publishedOn runId (.call (.subscribe runId' onEvent)) = [] from rfl, List.append_nil]
      exact ⟨h.run, ⟨n, hn, hafter⟩, h.all, h.waiting, h.started, h.going⟩
  | unsubscribe m =>
      rw [show publishedOn runId (.call (.unsubscribe m : Call κ)) = [] from rfl, List.append_nil]
      exact ⟨h.run, ⟨n, hn, hafter⟩, h.all, h.waiting, h.started, h.going⟩
  | publish envelope reactions =>
      rw [step_publish]
      have hiff := hlistening.delivered hn hclean.1 hclean.2
      by_cases hrun : envelope.runId = runId
      · rw [if_pos (hiff.mpr hrun),
          show publishedOn runId (.call (.publish envelope reactions)) = [envelope] from
            if_pos hrun]
        have hphase : (st.generator.onEvent envelope).phase =
            if st.generator.phase = .waiting then .woken else st.generator.phase := rfl
        refine ⟨h.run, ⟨n, hn, hafter⟩, ?_, ?_, ?_, ?_⟩
        · show st.generator.yielded ++ (st.generator.queue ++ [envelope]) = _
          rw [← List.append_assoc, h.all]
        · intro hwaiting
          dsimp only at hwaiting
          rw [hphase] at hwaiting
          split at hwaiting
          · cases hwaiting
          · rename_i hnot
            exact absurd hwaiting hnot
        · show (st.generator.onEvent envelope).phase ≠ .idle
          rw [hphase]
          split
          · exact nofun
          · exact h.started
        · show (st.generator.onEvent envelope).phase ≠ .done
          rw [hphase]
          split
          · exact nofun
          · exact h.going
      · rw [if_neg fun hmem => hrun (hiff.mp hmem),
          show publishedOn runId (.call (.publish envelope reactions)) = [] from if_neg hrun,
          List.append_nil]
        exact ⟨h.run, ⟨n, hn, hafter⟩, h.all, h.waiting, h.started, h.going⟩

/-- Any other step, while it is consumed. -/
theorem Consuming.step (h : Consuming mine runId published st) {step : StreamStep κ}
    (hcall : ∀ c, step ≠ .call c) :
    Streamed mine runId (left ∨ step = .leave) published (st.step mine step) := by
  cases step with
  | call c => exact absurd rfl (hcall c)
  | next =>
      cases hphase : st.generator.phase with
      | idle => exact absurd hphase h.started
      | yielded =>
          rw [show st.step mine .next = st.loop by unfold Streaming.step; rw [hphase]]
          exact h.loop
      | waiting =>
          rw [show st.step mine .next = st by unfold Streaming.step; rw [hphase]]
          exact Or.inl h
      | woken =>
          rw [show st.step mine .next = st by unfold Streaming.step; rw [hphase]]
          exact Or.inl h
      | done => exact absurd hphase h.going
  | resume =>
      by_cases hwoken : st.generator.phase = .woken
      · rw [show st.step mine .resume = st.loop from if_pos hwoken]
        exact h.loop
      · rw [show st.step mine .resume = st from if_neg hwoken]
        exact Or.inl h
  | abort =>
      refine Or.inl ⟨h.run, h.listening, h.all, ?_, ?_, ?_⟩
      · show (if st.generator.phase = .waiting then GeneratorPhase.woken else st.generator.phase) =
          .waiting → _
        split
        · exact nofun
        · rename_i hnot
          exact fun hwaiting => absurd hwaiting hnot
      · show (if st.generator.phase = .waiting then GeneratorPhase.woken else st.generator.phase) ≠
          .idle
        split
        · exact nofun
        · exact h.started
      · show (if st.generator.phase = .waiting then GeneratorPhase.woken else st.generator.phase) ≠
          .done
        split
        · exact nofun
        · exact h.going
  | leave =>
      cases hphase : st.generator.phase with
      | idle => exact absurd hphase h.started
      | yielded =>
          rw [show st.step mine .leave = st.finish by unfold Streaming.step; rw [hphase]]
          exact Or.inr ⟨rfl, ⟨st.generator.queue, h.all⟩, Or.inr (Or.inr rfl)⟩
      | waiting =>
          rw [show st.step mine .leave = st by unfold Streaming.step; rw [hphase]]
          exact Or.inl h
      | woken =>
          rw [show st.step mine .leave = st by unfold Streaming.step; rw [hphase]]
          exact Or.inl h
      | done => exact absurd hphase h.going

/-- A stream that has ended yields nothing more. -/
theorem Ended.step (h : Ended left published st) (step : StreamStep κ) :
    Ended (left ∨ step = .leave) (published ++ publishedOn runId step) (st.step mine step) := by
  have hfirst : st.generator.yielded <+: published ++ publishedOn runId step :=
    h.first.trans (List.prefix_append _ _)
  have hwhy : st.generator.aborted = true ∨ left ∨ step = .leave := h.why.imp_right Or.inl
  have hphase := h.phase
  cases step with
  | call c =>
      cases c with
      | subscribe runId' onEvent => exact ⟨hphase, hfirst, hwhy⟩
      | unsubscribe m => exact ⟨hphase, hfirst, hwhy⟩
      | publish envelope reactions =>
          rw [step_publish]
          split
          · refine ⟨?_, hfirst, hwhy⟩
            show (if st.generator.phase = .waiting then GeneratorPhase.woken
              else st.generator.phase) = .done
            rw [hphase]
            rfl
          · exact ⟨hphase, hfirst, hwhy⟩
  | next =>
      rw [show st.step mine .next = st by unfold Streaming.step; rw [hphase]]
      exact ⟨hphase, hfirst, hwhy⟩
  | resume =>
      rw [show st.step mine .resume = st from if_neg (by rw [hphase]; exact nofun)]
      exact ⟨hphase, hfirst, hwhy⟩
  | abort =>
      refine ⟨?_, hfirst, Or.inl rfl⟩
      show (if st.generator.phase = .waiting then GeneratorPhase.woken
        else st.generator.phase) = .done
      rw [hphase]
      rfl
  | leave =>
      rw [show st.step mine .leave = st by unfold Streaming.step; rw [hphase]]
      exact ⟨hphase, hfirst, hwhy⟩

/-- **What one step keeps of a stream that was started.** -/
theorem Streamed.step {step : StreamStep κ} (h : Streamed mine runId left published st)
    (hclean : CleanStep mine st step) :
    Streamed mine runId (left ∨ step = .leave) (published ++ publishedOn runId step)
      (st.step mine step) := by
  rcases h with h | h
  · by_cases hcall : ∃ c, step = .call c
    · obtain ⟨c, rfl⟩ := hcall
      exact Or.inl (h.call hclean)
    · have hnone : publishedOn runId step = [] := by
        cases step with
        | call c => exact absurd ⟨c, rfl⟩ hcall
        | next => rfl
        | resume => rfl
        | abort => rfl
        | leave => rfl
      rw [hnone, List.append_nil]
      exact h.step fun c heq => hcall ⟨c, heq⟩
  · exact Or.inr (h.step step)

theorem Streamed.run (steps : List (StreamStep κ)) : ∀ {st : Streaming κ}
    {published : List RunEventEnvelope} {left : Prop}, Streamed mine runId left published st →
      CleanSteps mine st steps →
      Streamed mine runId (left ∨ .leave ∈ steps) (published ++ steps.flatMap (publishedOn runId))
        (st.run mine steps) := by
  induction steps with
  | nil =>
      intro st published left h _
      rw [List.flatMap_nil, List.append_nil]
      refine h.imp_right fun h => ⟨h.phase, h.first, h.why.imp_right Or.inl⟩
  | cons step rest ih =>
      intro st published left h hclean
      have hrest := ih (h.step hclean.1) hclean.2
      rw [List.append_assoc] at hrest
      refine hrest.imp_right fun h => ⟨h.phase, h.first, h.why.imp_right ?_⟩
      rintro ((hleft | heq) | hmem)
      · exact Or.inl hleft
      · exact Or.inr (heq ▸ List.mem_cons_self)
      · exact Or.inr (List.mem_cons_of_mem _ hmem)

/-! ### Before a stream is started, and until it has yielded everything -/

/-- A stream whose first envelope was not asked for yet. -/
structure Unstarted (mine : κ) (runId : String) (s : Streaming κ) : Prop where
  run : s.generator.runId = runId
  empty : s.generator.yielded = [] ∧ s.generator.queue = []
  unknown : ∃ wanted, Kept s.bus wanted ∧ ∀ other, (other, mine) ∉ wanted
  others : ∀ f ∈ s.bus.functions, f.onEvent ≠ mine

theorem Unstarted.next (h : Unstarted mine runId st) (hidle : st.generator.phase = .idle) :
    Streamed mine runId left [] (st.step mine .next) := by
  obtain ⟨wanted, hkept, hunknown⟩ := h.unknown
  have hlistening : Listening mine (st.bus.subscribeRunEvents st.generator.runId mine)
      st.generator.runId st.bus.functions.length := listening_subscribe hkept h.others hunknown
  have hstep : st.step mine .next =
      Streaming.loop ⟨st.bus.subscribeRunEvents st.generator.runId mine,
        { st.generator with unsubscribe := some st.bus.functions.length }⟩ := by
    unfold Streaming.step
    rw [hidle]
  rw [hstep]
  refine streamed_loop h.run ⟨_, rfl, h.run ▸ hlistening⟩ ?_
  show st.generator.yielded ++ st.generator.queue = []
  rw [h.empty.1, h.empty.2]
  rfl

theorem Unstarted.call {c : Call κ} (h : Unstarted mine runId st)
    (hclean : CleanStep mine st (.call c)) : Unstarted mine runId (st.step mine (.call c)) := by
  obtain ⟨wanted, hkept, hunknown⟩ := h.unknown
  have hafter := hkept.call hclean.1
  cases c with
  | subscribe runId' onEvent =>
      refine ⟨h.run, h.empty, ⟨_, hafter, ?_⟩, ?_⟩
      · intro other hmem
        rcases Set.mem_insert_iff.mp hmem with heq | hold
        · exact hclean.2 (Prod.mk.inj heq).2.symm
        · exact hunknown other hold
      · intro f hf
        obtain ⟨set, hfunctions⟩ := functions_subscribe st.bus runId' onEvent
        have hf' : f ∈ st.bus.functions ++ [⟨runId', onEvent, set⟩] := hfunctions ▸ hf
        rcases List.mem_append.mp hf' with hold | hnew
        · exact h.others f hold
        · rw [List.mem_singleton.mp hnew]
          exact hclean.2
  | unsubscribe m =>
      refine ⟨h.run, h.empty, ⟨_, hafter, fun other hmem => hunknown other hmem.1⟩, ?_⟩
      intro f hf
      exact h.others f (functions_unsubscribe st.bus m ▸ hf)
  | publish envelope reactions =>
      obtain ⟨hdelivered, -, hfunctions⟩ := publish_delivered hkept envelope reactions hclean.1
      have hnot : mine ∉ (st.bus.publishRunEventEnvelope envelope reactions).1 := by
        intro hmem
        obtain ⟨before, after, hsplit⟩ := List.append_of_mem hmem
        exact hunknown _ (hdelivered.subscribed before mine after hsplit).1
      rw [step_publish, if_neg hnot]
      refine ⟨h.run, h.empty, ⟨_, hafter, fun other hmem => hunknown other hmem.1⟩, ?_⟩
      intro f hf
      exact h.others f (hfunctions ▸ hf)

theorem loop_ne_idle (st : Streaming κ) : st.loop.generator.phase ≠ .idle := by
  unfold Streaming.loop
  split
  · exact nofun
  · split
    · exact nofun
    · exact nofun

/-- As long as a stream is not started, a step keeps it so, or starts or ends it. -/
theorem unstarted_step {step : StreamStep κ}
    (h : st.generator.phase = .idle → Unstarted mine runId st) (hclean : CleanStep mine st step)
    (hidle : (st.step mine step).generator.phase = .idle) :
    Unstarted mine runId (st.step mine step) := by
  cases step with
  | call c =>
      have hphase : st.generator.phase = .idle := by
        cases c with
        | subscribe _ _ => exact hidle
        | unsubscribe _ => exact hidle
        | publish envelope reactions =>
            rw [step_publish] at hidle
            dsimp only at hidle
            split at hidle
            · unfold RunEventGenerator.onEvent at hidle
              dsimp only at hidle
              split at hidle
              · cases hidle
              · exact hidle
            · exact hidle
      exact (h hphase).call hclean
  | next =>
      exfalso
      unfold Streaming.step at hidle
      dsimp only at hidle
      split at hidle
      · exact loop_ne_idle _ hidle
      · exact loop_ne_idle _ hidle
      · rename_i hnot _
        exact hnot hidle
  | resume =>
      by_cases hwoken : st.generator.phase = .woken
      · rw [show st.step mine .resume = st.loop from if_pos hwoken] at hidle
        exact absurd hidle (loop_ne_idle st)
      · rw [show st.step mine .resume = st from if_neg hwoken] at hidle ⊢
        exact h hidle
  | abort =>
      have hphase : st.generator.phase = .idle := by
        unfold Streaming.step at hidle
        dsimp only at hidle
        split at hidle
        · cases hidle
        · exact hidle
      have hbefore := h hphase
      exact ⟨hbefore.run, hbefore.empty, hbefore.unknown, hbefore.others⟩
  | leave =>
      exfalso
      unfold Streaming.step at hidle
      dsimp only at hidle
      split at hidle
      · cases hidle
      · cases hidle
      · rename_i hnot _
        exact hnot hidle

theorem unstarted_run (steps : List (StreamStep κ)) : ∀ {st : Streaming κ},
    (st.generator.phase = .idle → Unstarted mine runId st) → CleanSteps mine st steps →
      (st.run mine steps).generator.phase = .idle → Unstarted mine runId (st.run mine steps) := by
  induction steps with
  | nil => exact fun h _ hidle => h hidle
  | cons step rest ih => exact fun h hclean => ih (unstarted_step h hclean.1) hclean.2

theorem cleanSteps_append (first second : List (StreamStep κ)) : ∀ {st : Streaming κ},
    CleanSteps mine st (first ++ second) →
      CleanSteps mine st first ∧ CleanSteps mine (st.run mine first) second := by
  induction first with
  | nil => exact fun h => ⟨trivial, h⟩
  | cons step rest ih =>
      intro st h
      obtain ⟨hrest, hsecond⟩ := ih h.2
      exact ⟨⟨h.1, hrest⟩, hsecond⟩

/-- The consumer asks for one envelope after the other, and the generator goes on in between. -/
def rounds (k : Nat) : List (StreamStep κ) := (List.replicate k [.resume, .next]).flatten

/-- A stream that is being consumed. -/
structure Going (s : Streaming κ) : Prop where
  started : s.generator.phase ≠ .idle
  going : s.generator.phase ≠ .done
  aborted : s.generator.aborted = false
  waiting : s.generator.phase = .waiting → s.generator.queue = []

theorem Going.loop (haborted : st.generator.aborted = false) :
    Going st.loop ∧ st.loop.generator.phase ≠ .woken ∧
      st.loop.generator.yielded ++ st.loop.generator.queue =
        st.generator.yielded ++ st.generator.queue ∧
      st.loop.generator.queue.length = st.generator.queue.length - 1 := by
  unfold Streaming.loop
  rw [if_neg (by rw [haborted]; exact nofun)]
  cases hqueue : st.generator.queue with
  | nil =>
      refine ⟨⟨nofun, nofun, haborted, fun _ => hqueue⟩, nofun, by rw [hqueue], ?_⟩
      show st.generator.queue.length = 0
      rw [hqueue]
      rfl
  | cons item rest =>
      refine ⟨⟨nofun, nofun, haborted, nofun⟩, nofun, ?_, rfl⟩
      show st.generator.yielded ++ [item] ++ rest = st.generator.yielded ++ item :: rest
      rw [List.append_assoc]
      rfl

/-- A round yields the next envelope, if there is one. -/
theorem Going.round (h : Going st) :
    let after := (st.step mine .resume).step mine .next
    Going after ∧ after.generator.yielded ++ after.generator.queue =
        st.generator.yielded ++ st.generator.queue ∧
      after.generator.queue.length ≤ st.generator.queue.length - 1 := by
  have hresume : Going (st.step mine .resume) ∧
      (st.step mine .resume).generator.phase ≠ .woken ∧
      (st.step mine .resume).generator.yielded ++ (st.step mine .resume).generator.queue =
        st.generator.yielded ++ st.generator.queue ∧
      (st.step mine .resume).generator.queue.length ≤ st.generator.queue.length := by
    by_cases hwoken : st.generator.phase = .woken
    · rw [show st.step mine .resume = st.loop from if_pos hwoken]
      obtain ⟨hgoing, hphase, hsame, hlength⟩ := Going.loop h.aborted
      exact ⟨hgoing, hphase, hsame, by omega⟩
    · rw [show st.step mine .resume = st from if_neg hwoken]
      exact ⟨h, hwoken, rfl, Nat.le_refl _⟩
  obtain ⟨hgoing, hphase, hsame, hlength⟩ := hresume
  generalize st.step mine .resume = mid at hgoing hphase hsame hlength
  dsimp only
  cases hmid : mid.generator.phase with
  | idle => exact absurd hmid hgoing.started
  | yielded =>
      rw [show mid.step mine .next = mid.loop by unfold Streaming.step; rw [hmid]]
      obtain ⟨hafter, -, hsame', hlength'⟩ := Going.loop hgoing.aborted
      exact ⟨hafter, hsame'.trans hsame, by omega⟩
  | waiting =>
      rw [show mid.step mine .next = mid by unfold Streaming.step; rw [hmid]]
      refine ⟨hgoing, hsame, ?_⟩
      rw [hgoing.waiting hmid]
      exact Nat.zero_le _
  | woken => exact absurd hmid hphase
  | done => exact absurd hmid hgoing.going

/-- **Whatever is in the queue is yielded in as many rounds.** -/
theorem Going.drained (k : Nat) : ∀ {st : Streaming κ}, Going st →
    st.generator.queue.length ≤ k →
      (st.run mine (rounds k)).generator.yielded = st.generator.yielded ++ st.generator.queue := by
  induction k with
  | zero =>
      intro st _ hlength
      rw [List.length_eq_zero_iff.mp (Nat.le_zero.mp hlength), List.append_nil]
      rfl
  | succ k ih =>
      intro st h hlength
      obtain ⟨hgoing, hsame, hless⟩ := @Going.round κ _ mine st h
      have hrest := ih hgoing (by omega)
      rw [hsame] at hrest
      exact hrest

/-! ### The whole -/

/-- **Every envelope is delivered to the callbacks that are subscribed to its run, each once, and a
stream yields them once and in order**, as long as every function that unsubscribes finds its own
set registered, or none. -/
theorem events_delivered (calls : List (Call κ)) (mine : κ) (runId : String)
    (before during : List (StreamStep κ)) (hcalls : CleanRun .empty calls)
    (hsteps : CleanSteps mine ⟨.empty, subscribeRunEventStream runId⟩ (before ++ .next :: during))
    (hidle : (Streaming.run mine ⟨.empty, subscribeRunEventStream runId⟩ before).generator.phase =
      .idle) :
    (∀ first envelope reactions rest, calls = first ++ .publish envelope reactions :: rest →
      Delivered (Subscribers.run .empty first).functions (wantedRun .empty ∅ first) envelope.runId
        reactions
        ((Subscribers.run .empty first).publishRunEventEnvelope envelope reactions).1) ∧
    let s := Streaming.run mine ⟨.empty, subscribeRunEventStream runId⟩ (before ++ .next :: during)
    let published := during.flatMap (publishedOn runId)
    s.generator.yielded <+: published ∧
      (s.generator.phase = .done → s.generator.aborted = true ∨ .leave ∈ during) ∧
      (s.generator.phase ≠ .done → s.generator.yielded ++ s.generator.queue = published ∧
        (s.generator.aborted = false → ∀ k, s.generator.queue.length ≤ k →
          (s.run mine (rounds k)).generator.yielded = published)) := by
  constructor
  · intro first envelope reactions rest hsplit
    rw [hsplit] at hcalls
    obtain ⟨hfirst, hrest⟩ := (cleanRun_append _ _ _).mp hcalls
    exact (publish_delivered (Kept.empty.run first hfirst) envelope reactions hrest.1).1
  · obtain ⟨hbefore, hnext⟩ := cleanSteps_append before _ hsteps
    have hunstarted : Unstarted mine runId
        (Streaming.run mine ⟨.empty, subscribeRunEventStream runId⟩ before) := by
      refine unstarted_run before (fun _ => ?_) hbefore hidle
      exact ⟨rfl, ⟨rfl, rfl⟩, ⟨∅, Kept.empty, fun _ => Set.notMem_empty _⟩,
        fun f hf => absurd hf List.not_mem_nil⟩
    have hstarted := @Unstarted.next κ _ mine runId _ False hunstarted hidle
    have hstreamed := hstarted.run during hnext.2
    have hrun : Streaming.run mine ⟨.empty, subscribeRunEventStream runId⟩
        (before ++ .next :: during) =
        ((Streaming.run mine ⟨.empty, subscribeRunEventStream runId⟩ before).step mine .next).run
          mine during := by
      unfold Streaming.run
      rw [List.foldl_append, List.foldl_cons]
    dsimp only
    rw [hrun]
    rw [List.nil_append] at hstreamed
    rcases hstreamed with h | h
    · refine ⟨⟨_, h.all⟩, fun hdone => absurd hdone h.going, fun _ => ⟨h.all, ?_⟩⟩
      intro haborted k hk
      rw [Going.drained k ⟨h.started, h.going, haborted, h.waiting⟩ hk]
      exact h.all
    · refine ⟨h.first, fun _ => ?_, fun hdone => absurd h.phase hdone⟩
      exact h.why.imp_right fun hor => hor.resolve_left id

/-! ### A set that is deleted by a function of an earlier one -/

def created : RunEventEnvelope where
  eventId := "event"
  runId := "run"
  sequence := 1
  timestamp := "2024-01-01T00:00:00.000Z"
  runtime := .localDev
  event := ⟨"event", "run", "plan", "2024-01-01T00:00:00.000Z", .runCreated⟩

/-- A callback that unsubscribes itself when it is given an envelope. -/
def oneShot : List (Call Nat) := [.subscribe "run" 1, .publish created fun _ => [0]]

theorem clean_oneShot : CleanRun .empty oneShot := by
  refine ⟨trivial, ?_, trivial⟩
  intro set hset
  obtain rfl : 0 = set := Option.some.inj hset
  refine (if_pos ?_).mpr ⟨⟨?_, trivial⟩, trivial⟩
  · exact List.mem_singleton_self 1
  · intro f hf set hset
    obtain rfl : ⟨"run", 1, 0⟩ = f := Option.some.inj hf
    exact (Option.some.inj hset).symm

theorem events_delivered_oneShot :
    Delivered (Subscribers.run .empty [.subscribe "run" 1]).functions
      (wantedRun .empty ∅ [.subscribe "run" 1]) "run" (fun _ => [0])
      ((Subscribers.run .empty [.subscribe "run" 1]).publishRunEventEnvelope created
        (fun _ => [0])).1 :=
  (events_delivered oneShot 0 "run" [] [.call (.subscribe "run" 1)] clean_oneShot
    ⟨trivial, ⟨trivial, Nat.one_ne_zero⟩, trivial⟩ rfl).1 [.subscribe "run" 1] created
      (fun _ => [0]) [] rfl

/-- The second call of an old function deletes the set of a later subscriber. -/
theorem later_set_deleted : ¬ ∀ (calls first rest : List (Call Nat)) (envelope : RunEventEnvelope)
    (reactions : Nat → List Nat), calls = first ++ .publish envelope reactions :: rest →
    Delivered (Subscribers.run .empty first).functions (wantedRun .empty ∅ first) envelope.runId
      reactions ((Subscribers.run .empty first).publishRunEventEnvelope envelope reactions).1 := by
  intro hall
  have hdelivered := hall _
    [.subscribe "run" 1, .unsubscribe 0, .subscribe "run" 2, .unsubscribe 0] []
    created (fun _ => []) rfl
  have hfunction : (Subscribers.run .empty
      [Call.subscribe "run" 1, .unsubscribe 0, .subscribe "run" 2]).functions[0]? =
      some ⟨"run", 1, 0⟩ := rfl
  have hwanted : ("run", 2) ∈ wantedRun .empty ∅
      [Call.subscribe "run" 1, .unsubscribe 0, .subscribe "run" 2, .unsubscribe 0] :=
    (mem_unsubscribed_single hfunction _).mpr ⟨Set.mem_insert _ _, by decide⟩
  rcases hdelivered.every 2 hwanted with hmem | hout
  · exact List.not_mem_nil hmem
  · refine hout ?_
    exact (congrArg (("run", 2) ∈ ·) (unsubscribed_nil _ _)).mpr hwanted

end OpenLagrange.Delivery
