import Stencil.Function.Stock
import Stencil.Proofs.Course.Changes
import Stencil.Proofs.Prompt

/-!
# Unwinding

In the course of a run whose calls are prompt, an activity that ends with an error or with
an outcome that blocks is the last thing that happens in the activity around it, which
reaches the same result (`HandsOn`).  So the activities that are pending then end one after
the other, innermost first, and nothing else happens, until a block takes a return that is
aimed at it or the run is over (`Unwound`).

An error and a termination are taken by no block: the run ends with them
(`Context.stops_at_once`).  A return ends the innermost block that takes it, which gives the
returned value, and without such a block it is the result of the run
(`Context.returns_to_block`).
-/

namespace Stencil

/-- Whether no block takes the result: it is an error or a termination. -/
def Result.stops : Result → Bool
  | .ok (.terminating _ _) => true
  | .ok _ => false
  | .error _ => true

theorem Result.blocks_of_stops {r : Result} (h : Result.stops r = true) :
  Result.blocks r = true
  := by
  match r with
  | .ok (.proceed v) => contradiction
  | .ok (.returning v s) => rfl
  | .ok (.terminating v s) => rfl
  | .error e => rfl

namespace Activity

/-- The activity is a block that takes a return with the given scope. -/
def Takes (scope : Option Scope) : Activity → Prop
  | node (.block _ s) => scope = none ∨ scope = s
  | _ => False

theorem conclude_of_stops (a : Activity) {r : Result} (h : Result.stops r = true) :
  a.conclude r = r
  := by
  unfold conclude
  split
  · cases r with
    | error e => rfl
    | ok outcome =>
        cases outcome with
        | proceed v => contradiction
        | returning v s => contradiction
        | terminating v s => rfl
  · rfl

theorem conclude_of_not_takes (a : Activity) {scope : Option Scope} {v : Value}
    (h : ¬ a.Takes scope) :
  a.conclude (.ok (.returning v scope)) = .ok (.returning v scope)
  := by
  unfold conclude
  split
  · apply congrArg Except.ok
    apply if_neg h
  · rfl

theorem conclude_of_takes {a : Activity} {scope : Option Scope} {v : Value}
    (h : a.Takes scope) :
  a.conclude (.ok (.returning v scope)) = proceed v
  := by
  unfold Takes at h
  split at h
  · apply congrArg Except.ok
    apply if_pos h
  · contradiction

end Activity

/-- What is known from what happens inside an activity and the result that is reached there:
inside a node that returns, its expression is evaluated and nothing else happens, and the
value of the expression is returned. -/
def Activity.Returns : Activity → List Event → Result → Prop
  | node (.returning expression scope), inner, reached =>
      ∃ evaluation r, Nested evaluation
        ∧ inner = .starts (.node expression) :: (evaluation ++ [.ends (.node expression) r])
        ∧ ∀ v, r = proceed v → reached = .ok (.returning v scope)
  | _, _, _ => True

/-- The events, which lead to the given result, hand results on: if an activity ends with an
error or with an outcome that blocks, then nothing happens around it any more, and that is
the result. -/
inductive HandsOn : List Event → Result → Prop where
  | nil (result : Result) : HandsOn [] result
  | point {e : Event} {rest : List Event} {result : Result} (he : e.isPoint = true)
      (hrest : HandsOn rest result) : HandsOn (e :: rest) result
  | activity (a : Activity) {inner rest : List Event} {reached result : Result}
      (hinner : HandsOn inner reached) (hreturns : a.Returns inner reached)
      (hblocks : Result.blocks (a.conclude reached) = true →
        rest = [] ∧ result = a.conclude reached)
      (hrest : HandsOn rest result) :
      HandsOn (.starts a :: (inner ++ .ends a (a.conclude reached) :: rest)) result

/-- What happens after an activity has ended with a result: if the result blocks, the
innermost pending activity ends with what it makes of the result, and so on, until something
does not block or the run is over. -/
def Unwound (final : Result) : (pending : List Activity) → Result → List Event → Prop
  | [], result, after => after = [] ∧ final = result
  | a :: enclosing, result, after =>
      ∃ rest, after = .ends a (a.conclude result) :: rest
        ∧ (Result.blocks (a.conclude result) = true →
          Unwound final enclosing (a.conclude result) rest)

namespace Unwound

/-- What is unwound inside an activity is unwound around it, if it hands on as well. -/
theorem enclosed {inside : List Activity} {result reached final : Result}
    {after rest : List Event} (a : Activity) (h : Unwound reached inside result after)
    (hblocks : Result.blocks (a.conclude reached) = true →
      rest = [] ∧ final = a.conclude reached) :
  Unwound final (inside ++ [a]) result (after ++ .ends a (a.conclude reached) :: rest)
  := by
  induction inside generalizing result after with
  | nil =>
      obtain ⟨rfl, rfl⟩ := h
      exact ⟨rest, rfl, hblocks⟩
  | cons b inside ih =>
      obtain ⟨more, rfl, hmore⟩ := h
      refine ⟨_, rfl, ?_⟩
      intro hresult
      apply ih (hmore hresult)

/-- A result that no pending activity changes is the result of the run, and all of them end
with it. -/
theorem to_the_end {enclosing : List Activity} {result final : Result} {after : List Event}
    (h : Unwound final enclosing result after) (hblocks : Result.blocks result = true)
    (hsame : ∀ a ∈ enclosing, a.conclude result = result) :
  after = enclosing.map (.ends · result) ∧ final = result
  := by
  induction enclosing generalizing after with
  | nil => apply h
  | cons a enclosing ih =>
      obtain ⟨rest, rfl, hrest⟩ := h
      rw [hsame a List.mem_cons_self] at hrest
      obtain ⟨rfl, hfinal⟩ := ih (hrest hblocks) fun b hb => hsame b (List.mem_cons_of_mem a hb)
      constructor
      · rw [hsame a List.mem_cons_self, List.map_cons]
      · apply hfinal

/-- The activities that do not change a result end with it, and the one around them ends
with what it makes of it. -/
theorem up_to {between outside : List Activity} {b : Activity} {result final : Result}
    {after : List Event} (h : Unwound final (between ++ b :: outside) result after)
    (hblocks : Result.blocks result = true)
    (hsame : ∀ a ∈ between, a.conclude result = result) :
  ∃ rest, after = between.map (.ends · result) ++ .ends b (b.conclude result) :: rest
  := by
  induction between generalizing after with
  | nil =>
      obtain ⟨rest, rfl, -⟩ := h
      exact ⟨rest, rfl⟩
  | cons a between ih =>
      obtain ⟨rest, rfl, hrest⟩ := h
      rw [hsame a List.mem_cons_self] at hrest
      obtain ⟨more, rfl⟩ := ih (hrest hblocks) fun b hb => hsame b (List.mem_cons_of_mem a hb)
      refine ⟨more, ?_⟩
      rw [hsame a List.mem_cons_self, List.map_cons, List.cons_append]

end Unwound

namespace HandsOn

theorem nested {events : List Event} {result : Result} (h : HandsOn events result) :
  Nested events
  := by
  induction h with
  | nil => apply Nested.nil
  | point he _ ih => apply Nested.point he ih
  | activity a _ _ _ _ ihinner ih => apply Nested.activity a _ ihinner ih

/-- After events that lead to a value, others may happen. -/
theorem append {events others : List Event} {v : Value} {result : Result}
    (h : HandsOn events (proceed v)) (h' : HandsOn others result) :
  HandsOn (events ++ others) result
  := by
  obtain ⟨value, hvalue⟩ : ∃ value, value = proceed v := ⟨_, rfl⟩
  rw [← hvalue] at h
  induction h with
  | nil => apply h'
  | point he _ ih => apply point he (ih hvalue)
  | activity a hinner hreturns hblocks _ _ ih =>
      rw [List.cons_append, List.append_assoc, List.cons_append]
      apply activity a hinner hreturns _ (ih hvalue)
      intro hresult
      obtain ⟨-, rfl⟩ := hblocks hresult
      rw [hvalue] at hresult
      contradiction

/-- When an activity ends with an error or with an outcome that blocks, the pending ones are
unwound. -/
theorem unwound {events before after : List Event} {a : Activity} {r result : Result}
    (h : HandsOn events result) (hsplit : events = before ++ .ends a r :: after)
    (hblocks : Result.blocks r = true) :
  Unwound result (pending before).tail r after
  := by
  induction h generalizing before after with
  | nil => simp at hsplit
  | @point e rest result he _ ih =>
      cases before with
      | nil =>
          obtain ⟨rfl, -⟩ := List.cons.inj hsplit
          contradiction
      | cons e' before =>
          obtain ⟨rfl, hrest⟩ := List.cons.inj hsplit
          rw [pending_point he]
          apply ih hrest
  | @activity b inner rest reached result hinner _ hb _ ihinner ih =>
      rcases eq_or_inside_or_behind hsplit with
        ⟨-, hstarts, -⟩ | ⟨before, after, rfl, rfl, rfl⟩ | ⟨rfl, hends, rfl⟩
          | ⟨before, rfl, hrest⟩
      · cases hstarts
      · -- Inside `b` everything up to `b` is unwound; then `b` ends, with whatever it was handed.
        obtain ⟨enclosing, hpending⟩ := pending_ends hinner.nested
        have hinside := ihinner rfl
        rw [hpending, List.tail_cons] at hinside
        rw [pending_inside hinner.nested, hpending, List.cons_append, List.tail_cons]
        apply hinside.enclosed b hb
      · obtain ⟨rfl, rfl⟩ := Event.ends.inj hends
        rw [pending_within hinner.nested, List.tail_cons]
        apply hb hblocks
      · rw [pending_behind hinner.nested]
        apply ih hrest

/-- When the expression of a node that returns has given a value, the node ends next and
returns it. -/
theorem returned {events before after : List Event} {expression : Node}
    {scope : Option Scope} {enclosing : List Activity} {v : Value} {result : Result}
    (h : HandsOn events result)
    (hsplit : events = before ++ .ends (.node expression) (proceed v) :: after)
    (hpending : pending before
      = .node expression :: .node (.returning expression scope) :: enclosing) :
  ∃ rest, after
    = .ends (.node (.returning expression scope)) (.ok (.returning v scope)) :: rest
  := by
  induction h generalizing before after enclosing with
  | nil => simp at hsplit
  | @point e rest result he _ ih =>
      cases before with
      | nil =>
          obtain ⟨rfl, -⟩ := List.cons.inj hsplit
          contradiction
      | cons e' before =>
          obtain ⟨rfl, hrest⟩ := List.cons.inj hsplit
          rw [pending_point he] at hpending
          apply ih hrest hpending
  | @activity b inner rest reached result hinner hreturns _ _ ihinner ih =>
      rcases eq_or_inside_or_behind hsplit with
        ⟨-, hstarts, -⟩ | ⟨before, after, rfl, rfl, rfl⟩ | ⟨rfl, -, -⟩ | ⟨before, rfl, hrest⟩
      · cases hstarts
      · rw [pending_inside hinner.nested] at hpending
        obtain ⟨others, hothers⟩ := pending_ends hinner.nested
        rw [hothers, List.cons_append] at hpending
        obtain ⟨-, htail⟩ := List.cons.inj hpending
        -- Either `b` is the node that returns, or that node is inside `b`.
        cases others with
        | nil =>
            obtain ⟨rfl, -⟩ := List.cons.inj htail
            obtain ⟨evaluation, r, hevaluation, hsplit, hr⟩ := hreturns
            rcases eq_or_inside_or_behind hsplit.symm with
              ⟨-, hstarts, -⟩ | ⟨before, after, rfl, rfl, rfl⟩ | ⟨rfl, hends, rfl⟩
                | ⟨before, rfl, hrest⟩
            · cases hstarts
            · obtain ⟨more, hmore⟩ := pending_ends hevaluation
              rw [pending_inside hevaluation, hmore] at hothers
              simp at hothers
            · obtain ⟨-, rfl⟩ := Event.ends.inj hends
              rw [hr v rfl]
              exact ⟨_, rfl⟩
            · simp at hrest
        | cons other others =>
            obtain ⟨rfl, -⟩ := List.cons.inj htail
            obtain ⟨more, rfl⟩ := ihinner rfl hothers
            exact ⟨_, rfl⟩
      · rw [pending_within hinner.nested] at hpending
        cases hpending
      · rw [pending_behind hinner.nested] at hpending
        apply ih hrest hpending

end HandsOn

/-! ### Runs -/

/-- If its calls are prompt, the course hands results on. -/
def Course.HandsOn {σ : Type} (c : Course σ) : Prop :=
  PromptCalls c.events → Stencil.HandsOn c.events c.result

/-- What goes on after a course only if the course gives a value hands results on. -/
theorem Course.HandsOn.after {σ τ : Type} {c : Course σ} {c' : Course τ} (h : c.HandsOn)
    (h' : c'.HandsOn)
    (hblocks : Result.blocks c.result = true → c'.events = [] ∧ c'.result = c.result) :
  (c'.after c.trace).HandsOn
  := by
  intro hprompt
  rw [Course.events_after] at hprompt ⊢
  obtain ⟨hbefore, hrest⟩ := List.forall_mem_append.mp hprompt
  rcases Result.proceeds_or_blocks c.result with ⟨v, hv⟩ | hresult
  · have hfirst := h hbefore
    rw [hv] at hfirst
    apply hfirst.append (h' hrest)
  · obtain ⟨hevents, hsame⟩ := hblocks hresult
    rw [hevents, List.append_nil, Course.after, hsame]
    apply h hbefore

theorem Course.HandsOn.behind_point {σ : Type} {c : Course σ} {m : Moment} (h : c.HandsOn)
    (hm : m.event.isPoint = true) :
  (c.after [m]).HandsOn
  := by
  intro hprompt
  rw [Course.events_after] at hprompt ⊢
  obtain ⟨-, hrest⟩ := List.forall_mem_append.mp hprompt
  apply Stencil.HandsOn.point hm (h hrest)

/-- A call hands results on, if its body does in case the call is prompt. -/
theorem Course.HandsOn.calling {s : Counted} {callee : Call Node}
    {body : Body callee.args.length} {run : CountedActivation → Course CountedActivation}
    (h : (Activity.call callee body).Prompt → (run s.opening).HandsOn) :
  (s.calling callee body run).HandsOn
  := by
  intro hprompt
  rw [Counted.events_calling] at hprompt ⊢
  obtain ⟨hcall, hinner⟩ := hprompt.inside
  apply Stencil.HandsOn.activity (.call callee body) _ trivial (fun _ => ⟨rfl, rfl⟩) (.nil _)
  apply h hcall hinner

/-- If the evaluation of an expression hands results on, a node that returns it does what is
known of such a node. -/
theorem Course.HandsOn.returns {n : Node} {c : Course Counted}
    (hinside : n.Inside Course.HandsOn c) (hprompt : PromptCalls c.events) :
  (Activity.node n).Returns c.events c.result
  := by
  cases n with
  | returning expression scope =>
      obtain ⟨depth, inner, hinner, rfl⟩ := hinside
      have hnested : PromptCalls (Course.during (.node expression) depth inner).events →
          Nested inner.events := by
        intro h
        rw [Course.events_during] at h
        apply (hinner h.inside.2).nested
      rcases Result.proceeds_or_blocks (Course.during (.node expression) depth inner).result with
        ⟨v, hv⟩ | hblocks
      · rw [Course.proceeding_of_proceed hv] at hprompt ⊢
        rw [Course.events_after, Course.events_still, List.append_nil] at hprompt ⊢
        refine ⟨inner.events, _, hnested hprompt, Course.events_during _ _ _, ?_⟩
        intro w hw
        obtain rfl : v = w := by
          apply Outcome.proceed.inj (Except.ok.inj (hv.symm.trans hw))
        rfl
      · rw [Course.proceeding_of_blocks hblocks] at hprompt ⊢
        refine ⟨inner.events, _, hnested hprompt, Course.events_during _ _ _, ?_⟩
        rintro w hw
        rw [Course.during, hw] at hblocks
        contradiction
  | _ => trivial

/-- Nodes hand results on, if calls do. -/
theorem Course.HandsOn.closed :
  Course.Closed fun _ => Course.HandsOn
  where
  still result s _ := .nil result
  reading s name _ := .point rfl (.nil _)
  binding s name v _ := .point rfl (.nil _)
  proceeding s c next h hnext := by
    rcases Result.proceeds_or_blocks c.result with ⟨v, hv⟩ | hblocks
    · rw [Course.proceeding_of_proceed hv]
      apply h.after (hnext v hv)
      rw [hv]
      nofun
    · rw [Course.proceeding_of_blocks hblocks]
      apply h
  inForkOf s c h := h
  node s n c h hinside hprompt := by
    rw [Course.events_during] at hprompt ⊢
    obtain ⟨-, hinner⟩ := hprompt.inside
    apply Stencil.HandsOn.activity (.node n) (h hinner) _ (fun _ => ⟨rfl, rfl⟩) (.nil _)
    apply Course.HandsOn.returns hinside hinner

/-- A prompt body hands results on, if nodes and calls do. -/
theorem Body.course_handsOn {answer : AnswerCourse}
    (hanswer : ∀ callee s, (answer callee s).HandsOn) (limits : Limits) {count : Nat}
    (args : Fin count → Node) {body : Body count} (hbody : body.Prompt)
    (a : CountedActivation) :
  (body.course answer limits args a).HandsOn
  := by
  induction body using Body.induction_on_resume generalizing a with
  | done result =>
      intro _
      rw [Body.course]
      apply HandsOn.nil
  | inspect i next ih =>
      rw [Body.course]
      apply ih _ args (hbody _)
  | evaluate context operand next ih =>
      obtain ⟨hblocks, hnext⟩ := Body.Prompt.resume hbody
      rw [Body.course_evaluate]
      have hoperand := (operand.node args).course_induction Course.HandsOn.closed hanswer
        (a.counted context)
      apply hoperand.after (ih _ args (hnext _) _)
      intro hresult
      rw [hblocks _ hresult, Body.course]
      exact ⟨rfl, rfl⟩
  | call context callee next ih =>
      obtain ⟨hblocks, hnext⟩ := Body.Prompt.resume hbody
      rw [Body.course_call]
      have hcall := hanswer (callee.map (Operand.node args)) (a.counted context)
      apply hcall.after (ih _ args (hnext _) _)
      intro hresult
      rw [hblocks _ hresult, Body.course]
      exact ⟨rfl, rfl⟩
  | read context name next ih =>
      rw [Body.course]
      apply (ih _ args (hbody _) _).behind_point rfl
  | isGlobal name next ih =>
      rw [Body.course]
      apply ih _ args (hbody _)
  | isLocal context name next ih =>
      rw [Body.course]
      apply ih _ args (hbody _)
  | arity name next ih =>
      rw [Body.course]
      apply ih _ args (hbody _)
  | bind context name v next ih =>
      rw [Body.course]
      apply (ih args hbody _).behind_point rfl
  | define name v next ih =>
      rw [Body.course]
      apply (ih args hbody _).behind_point rfl
  | register name accepted body next ih =>
      rw [Body.course]
      apply (ih _ args (hbody _) _).behind_point rfl
  | fork context next ih =>
      rw [Body.course]
      apply ih _ args (hbody _)
  | depth next ih =>
      rw [Body.course]
      apply ih _ args (hbody _)
  | limits next ih =>
      rw [Body.course]
      apply ih _ args (hbody _)

theorem answerCourse_handsOn (limits : Limits) (budget : Nat) (callee : Call Node)
    (s : Counted) :
  (answerCourse limits budget callee s).HandsOn
  := by
  induction budget generalizing callee s with
  | zero =>
      rw [answerCourse]
      cases s.store.bodyOf callee with
      | error e => apply Course.HandsOn.closed.still _ s
      | ok body => apply Course.HandsOn.closed.still _ s
  | succ budget ih =>
      rw [answerCourse]
      cases hbody : s.store.bodyOf callee with
      | error e => apply Course.HandsOn.closed.still _ s
      | ok body =>
          simp only
          split
          · apply Course.HandsOn.closed.still _ s
          · apply Course.HandsOn.calling
            intro hprompt
            apply Body.course_handsOn ih limits _ (hprompt.body hbody)

namespace Context

variable (c : Context)

/-- If its calls are prompt, the course of a node hands results on. -/
theorem course_handsOn (n : Node) :
  (c.course n).HandsOn
  := n.course_induction Course.HandsOn.closed (Stencil.answerCourse_handsOn c.limits _) c.counted

/-- When an activity in the course of a node ends with an error or terminates, the pending
activities end with the same result, innermost first, and nothing else happens any more.  The
node gives that result, and what it changes is accounted for by what happened before. -/
theorem stops_at_once {n : Node} {before after : List Event} {a : Activity} {r : Result}
    (hprompt : PromptCalls (c.course n).events)
    (hsplit : (c.course n).events = before ++ .ends a r :: after) (hstops : r.stops = true) :
  after = (pending before).tail.map (.ends · r)
    ∧ (c.evaluate n).1 = r
    ∧ Environment.ChangedBy before c.environment (c.evaluate n).2.environment
  := by
  have hunwound := (c.course_handsOn n hprompt).unwound hsplit (Result.blocks_of_stops hstops)
  obtain ⟨rfl, hresult⟩ := hunwound.to_the_end (Result.blocks_of_stops hstops)
    fun b _ => b.conclude_of_stops hstops
  have hchanged := c.changedBy_course n
  rw [hsplit] at hchanged
  and_intros
  · rfl
  · rw [c.evaluate_eq_course n, hresult]
  · apply hchanged.of_append
    intro e he
    rcases List.mem_cons.mp he with rfl | hrest
    · rfl
    · obtain ⟨b, -, rfl⟩ := List.mem_map.mp hrest
      rfl

/-- A termination in an argument of a function ends the call, and the block around it even
though it has the same scope; the other child of the block is not evaluated. -/
theorem stops_at_once_in_argument :
  ∃ (c : Context) (stop call whole : Node) (body : Body 1) (before : List Event) (r : Result),
    whole = .block [call, .reference "x"] (some ⟨1⟩)
      ∧ r = .ok (.terminating (.integer 2) (some ⟨1⟩))
      ∧ PromptCalls (c.course whole).events
      ∧ (c.course whole).events
        = before ++ .ends (.node stop) r
          :: [.call (.function "list" [stop] none) body, .node call, .node whole].map (.ends · r)
      ∧ (c.evaluate whole).1 = r
  := by
  let c := ((root .standard).register "list" (.list .any)).2
  let value : Node := .literal (.integer 2)
  let stop : Node := .terminating value (some ⟨1⟩)
  let call : Node := .call "list" [stop] none
  let whole : Node := .block [call, .reference "x"] (some ⟨1⟩)
  let body := (Function.list .any).body 1 none
  let before : List Event := [.starts (.node whole), .starts (.node call),
    .starts (.call (.function "list" [stop] none) body), .starts (.node stop),
    .starts (.node value), .ends (.node value) (proceed (.integer 2))]
  let r : Result := .ok (.terminating (.integer 2) (some ⟨1⟩))
  have hsplit : (c.course whole).events
      = before ++ .ends (.node stop) r
        :: [.call (.function "list" [stop] none) body, .node call, .node whole].map (.ends · r) :=
    rfl
  have hcall : (Activity.call (.function "list" [stop] none) body).Prompt := .inl ⟨_, _, rfl⟩
  have hprompt : PromptCalls (c.course whole).events := by
    rw [hsplit]
    simpa [PromptCalls, Event.Prompt, Activity.Prompt, before] using hcall
  obtain ⟨-, hresult, -⟩ := c.stops_at_once hprompt hsplit rfl
  exact ⟨c, stop, call, whole, body, before, r, rfl, rfl, hprompt, hsplit, hresult⟩

/-- When the expression of a node that returns has given a value, in the course of a node,
the node that returns it ends and so do the pending activities around it, innermost first,
all with the return, up to the innermost block that takes it: that ends with the value.  If
no block takes the return, it is the result of the whole, and the display text of the value
is rendered. -/
theorem returns_to_block {n expression : Node} {scope : Option Scope} {v : Value}
    {before after : List Event} {enclosing : List Activity}
    (hprompt : PromptCalls (c.course n).events)
    (hsplit : (c.course n).events = before ++ .ends (.node expression) (proceed v) :: after)
    (hpending : pending before
      = .node expression :: .node (.returning expression scope) :: enclosing) :
  (∀ between block outside, enclosing = between ++ block :: outside →
      (∀ a ∈ between, ¬ a.Takes scope) → block.Takes scope →
      ∃ rest, after
        = (.node (.returning expression scope) :: between).map
            (.ends · (.ok (.returning v scope)))
          ++ .ends block (proceed v) :: rest)
    ∧ ((∀ a ∈ enclosing, ¬ a.Takes scope) →
      after
          = (.node (.returning expression scope) :: enclosing).map
              (.ends · (.ok (.returning v scope)))
        ∧ (c.evaluate n).1 = .ok (.returning v scope)
        ∧ (c.render n).1 = .ok (.text v.display))
  := by
  have hcourse := c.course_handsOn n hprompt
  obtain ⟨rest, rfl⟩ := hcourse.returned hsplit hpending
  have hreturning : pending (before ++ [.ends (.node expression) (proceed v)])
      = .node (.returning expression scope) :: enclosing := by
    rw [pending, List.foldl_append, ← pending, hpending]
    rfl
  rw [← List.singleton_append, ← List.append_assoc] at hsplit
  have hunwound := hcourse.unwound hsplit rfl
  rw [hreturning, List.tail_cons] at hunwound
  constructor
  · rintro between block outside rfl hbetween hblock
    obtain ⟨more, rfl⟩ := hunwound.up_to rfl fun a ha => a.conclude_of_not_takes (hbetween a ha)
    rw [Activity.conclude_of_takes hblock]
    exact ⟨more, rfl⟩
  · intro hnone
    obtain ⟨rfl, hresult⟩ := hunwound.to_the_end rfl
      fun a ha => a.conclude_of_not_takes (hnone a ha)
    rw [render, c.evaluate_eq_course n, hresult]
    exact ⟨rfl, rfl, rfl⟩

/-- A return in an argument of a function passes a block with another scope and the call, and
ends the block that it is aimed at; the other child of that block is not evaluated. -/
theorem returns_to_block_from_argument :
  ∃ (c : Context) (value back inner call whole : Node) (body : Body 1)
      (before after : List Event),
    back = .returning value (some ⟨1⟩) ∧ inner = .block [back] (some ⟨2⟩)
      ∧ whole = .block [call, .reference "x"] (some ⟨1⟩)
      ∧ PromptCalls (c.course whole).events
      ∧ (c.course whole).events
        = before ++ .ends (.node value) (proceed (.integer 2)) :: after
      ∧ pending before
        = [.node value, .node back, .node inner, .call (.function "list" [inner] none) body,
          .node call, .node whole]
      ∧ ∃ rest, after
        = [.node back, .node inner, .call (.function "list" [inner] none) body,
            .node call].map (.ends · (.ok (.returning (.integer 2) (some ⟨1⟩))))
          ++ .ends (.node whole) (proceed (.integer 2)) :: rest
  := by
  let c := ((root .standard).register "list" (.list .any)).2
  let value : Node := .literal (.integer 2)
  let back : Node := .returning value (some ⟨1⟩)
  let inner : Node := .block [back] (some ⟨2⟩)
  let call : Node := .call "list" [inner] none
  let whole : Node := .block [call, .reference "x"] (some ⟨1⟩)
  let body := (Function.list .any).body 1 none
  let before : List Event := [.starts (.node whole), .starts (.node call),
    .starts (.call (.function "list" [inner] none) body), .starts (.node inner),
    .starts (.node back), .starts (.node value)]
  let after : List Event := [.node back, .node inner, .call (.function "list" [inner] none) body,
      .node call].map (.ends · (.ok (.returning (.integer 2) (some ⟨1⟩))))
    ++ [.ends (.node whole) (proceed (.integer 2))]
  have hsplit : (c.course whole).events
      = before ++ .ends (.node value) (proceed (.integer 2)) :: after :=
    rfl
  have hcall : (Activity.call (.function "list" [inner] none) body).Prompt := .inl ⟨_, _, rfl⟩
  have hprompt : PromptCalls (c.course whole).events := by
    rw [hsplit]
    simpa [PromptCalls, Event.Prompt, Activity.Prompt, before, after] using hcall
  obtain ⟨hblock, -⟩ := c.returns_to_block hprompt hsplit rfl
  have hafter := hblock [.node inner, .call (.function "list" [inner] none) body, .node call]
    (.node whole) [] rfl (by simp [Activity.Takes, inner]) (.inr rfl)
  exact ⟨c, value, back, inner, call, whole, body, before, after, rfl, rfl, rfl, hprompt, hsplit,
    rfl, hafter⟩

end Context

end Stencil
