import Stencil.Function.Stock
import Stencil.Proofs.Node
import Stencil.Proofs.Plain

/-!
# Greater limits

A limit that is exceeded makes a run fail and has no other influence on it.  If an evaluation
does not fail because of a limit, and is not aborted either, then it goes exactly the same way
in the context with greater limits (`Context.evaluate_of_tighter`).

`Course.Refines` compares a course with the course under greater limits: either the first one
ends because of a limit, or they are the same.  Bodies preserve this (`Body.course_refines`)
if they hand back what fails because of a limit, and look at the limits only to fail.
-/

namespace Stencil

/-! ### Limits -/

/-- Both limits are at most the others. -/
instance : LE Limits where
  le l l' := l.maxCallDepth ≤ l'.maxCallDepth ∧ l.maxStringLen ≤ l'.maxStringLen

/-- Whether the fault is that a limit of the run is exceeded. -/
def Fault.isLimit : Fault → Bool
  | callDepthExceeded _ => true
  | stringTooLong _ _ _ => true
  | _ => false

/-- The result is the error that a limit of the run is exceeded. -/
def Result.LimitExceeded : Result → Prop
  | .error e => e.fault.isLimit = true
  | .ok _ => False

/-- A limit of the run is exceeded, or the run is aborted because what a text can take is. -/
def Result.OverLimit : Result → Prop
  | .error e => e.fault.isLimit = true ∨ e.aborts = true
  | .ok _ => False

theorem Result.LimitExceeded.overLimit {r : Result} (h : r.LimitExceeded) :
  r.OverLimit
  := by
  cases r with
  | ok outcome => contradiction
  | error e => exact .inl h

theorem Result.OverLimit.limitExceeded {r : Result} (h : r.OverLimit)
    (haborts : r.aborts = false) :
  r.LimitExceeded
  := by
  cases r with
  | ok outcome => contradiction
  | error e =>
      rcases h with hlimit | hover
      · exact hlimit
      · exact absurd hover (Bool.eq_false_iff.mp haborts)

theorem Result.overLimit_of_aborts {r : Result} (h : r.aborts = true) :
  r.OverLimit
  := by
  cases r with
  | ok outcome => cases h
  | error e => exact .inr h

theorem Activity.overLimit_conclude (a : Activity) {r : Result} (h : r.OverLimit) :
  Result.OverLimit (a.conclude r)
  := by
  cases r with
  | ok outcome => contradiction
  | error e =>
      unfold conclude
      split
      · apply h
      · apply h

/-! ### Bodies -/

namespace Body

/-- If the body ends here, then with the error that a limit is exceeded. -/
def Refuses {count : Nat} : Body count → Prop
  | .done result => result.LimitExceeded
  | _ => True

/-- Told that a limit is exceeded, the body will end with such an error; and what it does
with the limits of the run is the same for greater limits, unless it will end with such an
error. -/
def Rejects {count : Nat} : Body count → Prop
  | .evaluate _ _ next => ∀ r, r.LimitExceeded → (next r).Always Refuses
  | .call _ _ next => ∀ r, r.LimitExceeded → (next r).Always Refuses
  | .limits next => ∀ l l', l ≤ l' → next l = next l' ∨ (next l).Always Refuses
  | _ => True

/-- Of the limits and of the errors that they are exceeded, the body makes no more than such
errors. -/
def Rejecting {count : Nat} (body : Body count) : Prop := body.Always Rejects

theorem Plain.rejecting {count : Nat} {own : Signal → Prop} {body : Body count}
    (h : body.Plain own) :
  body.Rejecting
  := by
  induction h with
  | done result h => trivial
  | value context i h ih =>
      apply always_value _ (fun _ => trivial) ih
      intro r hover
      match r with
      | .error e => apply hover
      | .ok outcome => contradiction
  | call context callee h => exact ⟨fun r hover => hover, fun _ => trivial⟩
  | read context name h ih => exact ⟨trivial, ih⟩
  | isGlobal name h ih => exact ⟨trivial, ih⟩
  | bind context name v h ih => exact ⟨trivial, ih⟩
  | fork context h ih => exact ⟨trivial, ih⟩
  | withinLimit operation source length h ih =>
      rw [Member.withinLimit]
      split
      · trivial
      · constructor
        · rintro l l' ⟨-, hlength⟩
          simp only
          split
          · right
            rfl
          · left
            rename_i hfits
            have := UInt64.le_iff_toNat_le.mp hlength
            rw [if_neg (by omega : ¬ l'.maxStringLen.toNat < length)]
        · intro limits
          simp only
          split
          · trivial
          · split
            · trivial
            · apply ih

theorem overLimit_resume {count : Nat} {next : Result → Body count} {r : Result}
    {answer : AnswerCourse} {limits : Limits} {args : Fin count → Node} {a : CountedActivation}
    (h : r.aborts = false → ((next r).course answer limits args a).result.OverLimit) :
  ((resume next r).course answer limits args a).result.OverLimit
  := by
  rcases resume_cases next r with ⟨haborts, hsame⟩ | ⟨haborts, hsame⟩
  · rw [hsame]
    apply Result.overLimit_of_aborts haborts
  · rw [hsame]
    apply h haborts

/-- A body that can only end with the error that a limit is exceeded does so, unless the run is
aborted before. -/
theorem overLimit_course {count : Nat} {body : Body count} (h : body.Always Refuses)
    (answer : AnswerCourse) (limits : Limits) (args : Fin count → Node) (a : CountedActivation) :
  (body.course answer limits args a).result.OverLimit
  := by
  induction body generalizing a with
  | done result => apply Result.LimitExceeded.overLimit h
  | inspect i next ih => apply ih _ (h.2 _)
  | evaluate context operand next ih =>
      rw [course_evaluate]
      apply overLimit_resume fun _ => ih _ (h.2 _) args _
  | call context callee next ih =>
      rw [course_call]
      apply overLimit_resume fun _ => ih _ (h.2 _) args _
  | read context name next ih => apply ih _ (h.2 _)
  | isGlobal name next ih => apply ih _ (h.2 _)
  | isLocal context name next ih => apply ih _ (h.2 _)
  | arity name next ih => apply ih _ (h.2 _)
  | bind context name v next ih => apply ih h.2
  | define name v next ih => apply ih h.2
  | register name accepted body next _ ih => apply ih _ (h.2 _)
  | fork context next ih => apply ih _ (h.2 _)
  | depth next ih => apply ih _ (h.2 _)
  | limits next ih => apply ih _ (h.2 _)

end Body

/-! ### Two runs -/

/-- If the functions that are called in the first course are eager or rejecting, then it ends
because a limit is exceeded, or it is the second course. -/
def Course.Refines {σ : Type} (c c' : Course σ) : Prop :=
  CallsOnly Body.Rejecting c.events → c.result.OverLimit ∨ c = c'

namespace Course.Refines

variable {σ τ : Type}

theorem refl (c : Course σ) :
  c.Refines c
  := fun _ => .inr rfl

/-- What goes on after two courses: the first one must end because of a limit, if what is
before it does. -/
theorem after {c c' : Course σ} {next next' : Course τ} (h : c.Refines c')
    (hover : c.result.OverLimit → next.result.OverLimit) (hnext : c = c' → next.Refines next') :
  (next.after c.trace).Refines (next'.after c'.trace)
  := by
  intro hcalls
  rw [Course.events_after] at hcalls
  obtain ⟨hfirst, hrest⟩ := hcalls.of_append
  rcases h hfirst with hlimit | rfl
  · left
    apply hover hlimit
  · rcases hnext rfl hrest with hlimit | rfl
    · left
      apply hlimit
    · right
      rfl

/-- The same moments before both courses. -/
theorem behind {c c' : Course σ} (h : c.Refines c') (before : List Moment) :
  (c.after before).Refines (c'.after before)
  := by
  intro hcalls
  rw [Course.events_after] at hcalls
  rcases h hcalls.of_append.2 with hlimit | rfl
  · left
    apply hlimit
  · right
    rfl

end Course.Refines

section TwoRuns

variable {answer answer' : AnswerCourse} {limits limits' : Limits}

/-- A rejecting body preserves the comparison. -/
theorem Body.course_refines (hlimits : limits ≤ limits')
    (hanswer : ∀ callee s, (answer callee s).Refines (answer' callee s)) {count : Nat}
    {args : Fin count → Node}
    (hargs : ∀ i s, ((args i).course answer s).Refines ((args i).course answer' s))
    {body : Body count} (hbody : body.Rejecting)
    (hown : body.Always (OwnTree fun n => ∀ s, (n.course answer s).Refines (n.course answer' s)))
    (a : CountedActivation) :
  (body.course answer limits args a).Refines (body.course answer' limits' args a)
  := by
  induction body using Body.induction_on_resume generalizing a with
  | done result => apply Course.Refines.refl
  | inspect i next ih => apply ih _ hargs (hbody.2 _) (hown.2 _)
  | evaluate context operand next ih =>
      have hoperand : ∀ s, ((operand.node args).course answer s).Refines
          ((operand.node args).course answer' s) :=
        OwnTree.node hown.1 hargs
      rw [Body.course_evaluate, Body.course_evaluate]
      apply Course.Refines.after (hoperand _)
      · intro hover
        apply Body.overLimit_resume
        intro haborts
        apply Body.overLimit_course (hbody.1 _ (hover.limitExceeded haborts))
      · intro hsame
        rw [hsame]
        apply ih _ hargs (.resume hbody.2 (fun _ => trivial) _)
          (.resume hown.2 (fun _ => trivial) _)
  | call context callee next ih =>
      rw [Body.course_call, Body.course_call]
      apply Course.Refines.after (hanswer _ _)
      · intro hover
        apply Body.overLimit_resume
        intro haborts
        apply Body.overLimit_course (hbody.1 _ (hover.limitExceeded haborts))
      · intro hsame
        rw [hsame]
        apply ih _ hargs (.resume hbody.2 (fun _ => trivial) _)
          (.resume hown.2 (fun _ => trivial) _)
  | read context name next ih =>
      rw [Body.course, Body.course]
      apply (ih _ hargs (hbody.2 _) (hown.2 _) _).behind
  | isGlobal name next ih => apply ih _ hargs (hbody.2 _) (hown.2 _)
  | isLocal context name next ih => apply ih _ hargs (hbody.2 _) (hown.2 _)
  | arity name next ih => apply ih _ hargs (hbody.2 _) (hown.2 _)
  | bind context name v next ih =>
      rw [Body.course, Body.course]
      apply (ih hargs hbody.2 hown.2 _).behind
  | define name v next ih =>
      rw [Body.course, Body.course]
      apply (ih hargs hbody.2 hown.2 _).behind
  | register name accepted body next ih =>
      rw [Body.course, Body.course]
      apply (ih _ hargs (hbody.2 _) (hown.2 _) _).behind
  | fork context next ih => apply ih _ hargs (hbody.2 _) (hown.2 _)
  | depth next ih => apply ih _ hargs (hbody.2 _) (hown.2 _)
  | limits next ih =>
      rw [Body.course, Body.course]
      rcases hbody.1 _ _ hlimits with hsame | hrefuses
      · rw [← hsame]
        apply ih _ hargs (hbody.2 _) (hown.2 _)
      · intro _
        left
        apply Body.overLimit_course hrefuses

/-- An activity preserves the comparison, if its body does in case all calls in it are
allowed for. -/
theorem Activity.course_refines (activity : Activity) (s : Counted)
    (h : activity.CallsOnly Body.Rejecting →
      (activity.body.course answer limits activity.args.get (activity.opening s)).Refines
        (activity.body.course answer' limits' activity.args.get (activity.opening s))) :
  (activity.course answer limits s).Refines (activity.course answer' limits' s)
  := by
  intro hcalls
  rw [Activity.events_course] at hcalls
  rcases h (hcalls activity List.mem_cons_self) hcalls.of_cons.of_append.1 with hover | hsame
  · left
    apply activity.overLimit_conclude hover
  · right
    rw [Activity.course, Activity.course, hsame]

/-- Nodes preserve the comparison. -/
theorem Node.course_refines (hlimits : limits ≤ limits')
    (hanswer : ∀ callee s, (answer callee s).Refines (answer' callee s)) (n : Node) (s : Counted) :
  (n.course answer s).Refines (n.course answer' s)
  := by
  induction n using Node.induction_on_children generalizing s with
  | h n ih =>
      rw [n.course_eq_activity limits, n.course_eq_activity limits']
      apply Activity.course_refines
      intro _
      apply Body.course_refines hlimits hanswer _ n.plain_body.rejecting (n.plain_body.ownTree _)
      intro i s
      apply ih _ (List.get_mem _ i)

/-- Following calls under greater limits preserves the comparison. -/
theorem answerCourse_refines (hlimits : limits ≤ limits') {budget budget' : Nat}
    (hbudget : budget ≤ budget') (callee : Call Node) (s : Counted) :
  (answerCourse limits budget callee s).Refines (answerCourse limits' budget' callee s)
  := by
  induction budget generalizing budget' callee s with
  | zero =>
      cases hbody : s.store.bodyOf callee with
      | error e =>
          cases budget' <;> simp only [answerCourse, hbody] <;> apply Course.Refines.refl
      | ok body =>
          intro _
          left
          simp only [answerCourse, hbody]
          exact .inl rfl
  | succ budget ih =>
      obtain ⟨budget', rfl⟩ := Nat.exists_eq_add_of_le' (Nat.succ_le_of_lt (Nat.zero_lt_of_lt hbudget))
      have hanswer := fun callee s => ih (Nat.le_of_succ_le_succ hbudget) callee s
      rw [answerCourse, answerCourse]
      cases hbody : s.store.bodyOf callee with
      | error e => apply Course.Refines.refl
      | ok body =>
          by_cases hroom : limits.maxCallDepth ≤ s.depth
          · intro _
            left
            simp only [if_pos hroom]
            exact .inl rfl
          · have hroom' : ¬ limits'.maxCallDepth ≤ s.depth := by
              intro hle
              apply hroom (UInt64.le_trans hlimits.1 hle)
            simp only [if_neg hroom, if_neg hroom']
            rw [Counted.calling_eq_activity, Counted.calling_eq_activity]
            apply Activity.course_refines
            intro hcalls
            apply Body.course_refines hlimits hanswer
            · intro i s
              apply (callee.args.get i).course_refines hlimits hanswer
            · apply hcalls.body (fun h => (h.plain fun _ => False).rejecting) hbody
            · apply Body.always_ownTree
              intro n s
              apply n.course_refines hlimits hanswer

end TwoRuns

/-- The contexts differ in nothing but their limits, and the limits of the first one are at
most those of the second. -/
structure Context.Tighter (c c' : Context) : Prop where
  store : c'.store = c.store
  locals : c'.locals = c.locals
  depth : c'.depth = c.depth
  limits : c.limits ≤ c'.limits

namespace Context

variable {c c' : Context}

theorem Tighter.course_refines (h : c.Tighter c') (n : Node) :
  (c.course n).Refines (c'.course n)
  := by
  have hcounted : c'.counted = c.counted := by
    rw [counted, counted, environment, environment, h.store, h.locals, h.depth]
  have hbudget : c.limits.maxCallDepth.toNat - c.depth
      ≤ c'.limits.maxCallDepth.toNat - c'.depth := by
    rw [h.depth]
    apply Nat.sub_le_sub_right (UInt64.le_iff_toNat_le.mp h.limits.1)
  rw [course, course, hcounted]
  apply n.course_refines h.limits (answerCourse_refines h.limits hbudget)

/-- If an evaluation does not fail because a limit is exceeded, then in a context with greater
limits it gives the same result and leaves the same behind.  The functions that it calls are
eager, or make nothing of the limits and of errors that they are exceeded but such errors. -/
theorem evaluate_of_tighter (h : c.Tighter c') {n : Node}
    (hcalls : CallsOnly Body.Rejecting (c.course n).events)
    (hresult : ¬ (c.evaluate n).1.OverLimit) :
  (c'.evaluate n).1 = (c.evaluate n).1 ∧ (c.evaluate n).2.Tighter (c'.evaluate n).2
  := by
  rw [c.evaluate_eq_course] at hresult ⊢
  rw [c'.evaluate_eq_course]
  rcases h.course_refines n hcalls with hover | hsame
  · contradiction
  · rw [← hsame]
    constructor
    · rfl
    · constructor
      · rfl
      · rfl
      · apply h.depth
      · apply h.limits

/-- A function and a member in its argument that grows a string give the same under greater
limits. -/
theorem evaluate_of_tighter_in_argument :
  ∃ (c c' : Context) (n : Node),
    c.Tighter c' ∧ c.limits = ⟨2, 4⟩ ∧ c'.limits = ⟨3, 8⟩
      ∧ CallsOnly Body.Rejecting (c.course n).events ∧ ¬ (c.evaluate n).1.OverLimit
      ∧ (c'.evaluate n).1 = (c.evaluate n).1 ∧ (c.evaluate n).2.Tighter (c'.evaluate n).2
  := by
  let c := ((root ⟨2, 4⟩).register "list" (.list .any)).2
  let c' := ((root ⟨3, 8⟩).register "list" (.list .any)).2
  let receiver : Node := .literal (.string "ab")
  let count : Node := .literal (.integer 2)
  let copies : Node := .dot receiver "repeat" [count] none
  let n : Node := .call "list" [copies] none
  let call : Activity := .call (.function "list" [copies] none) ((Function.list .any).body 1 none)
  let member : Activity := .call (.member (.string "ab") "repeat" [count] none)
    (Member.repeated.body ⟨"repeat", .string "ab", none⟩ 1)
  let grown := proceed (.string (Text.copies 2 "ab"))
  have htighter : c.Tighter c' :=
    ⟨rfl, rfl, rfl, (by decide : (2 : Size) ≤ 3), (by decide : (4 : Size) ≤ 8)⟩
  have hevents : (c.course n).events
      = [.starts (.node n), .starts call, .starts (.node copies), .starts (.node receiver),
        .ends (.node receiver) (proceed (.string "ab")), .starts member, .starts (.node count),
        .ends (.node count) (proceed (.integer 2)), .ends member grown,
        .ends (.node copies) grown, .ends call (c.course n).result,
        .ends (.node n) (c.course n).result] :=
    rfl
  have hcalls : CallsOnly Body.Rejecting (c.course n).events := by
    intro a ha
    rw [hevents] at ha
    simp only [List.mem_cons, Event.starts.injEq, reduceCtorEq, false_or, or_false,
      List.not_mem_nil] at ha
    obtain rfl | rfl | rfl | rfl | rfl | rfl := ha
    · trivial
    · exact .inl ⟨_, _, rfl⟩
    · trivial
    · trivial
    · trivial
    · trivial
  have hresult : ¬ (c.evaluate n).1.OverLimit := fun h => h
  obtain ⟨hsame, hafter⟩ := evaluate_of_tighter htighter hcalls hresult
  exact ⟨c, c', n, htighter, rfl, rfl, hcalls, hresult, hsame, hafter⟩

end Context

end Stencil
