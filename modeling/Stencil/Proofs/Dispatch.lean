import Stencil.Proofs.Member
import Stencil.Proofs.Plain

/-!
# What calls check

A call is checked before anything happens: what it names must exist, the number of its arguments must
be accepted, and there must be room for one more open call.  The first of these that is not so is the
error, and nothing has been touched then (`Context.call_of_refuses`).  Otherwise the call gives what
its body gives.

Bodies of members provide for calls that have not been checked: for an argument that is missing, and
for a receiver of another kind.  In calls that have been checked they never need to
(`Context.call_refused_or_run`).
-/

namespace Stencil

/-! ### Finding what a call names -/

/-- What a call names: the arity and the body of a function that is registered, or of a member of the
receiver's kind. -/
inductive Store.Finds (s : Store) : Call Node → Arity → ((count : Nat) → Body count) → Prop where
  | function {name : String} {f : Function} (args : List Node) (scope : Option Scope)
      (h : s.functions.get? name = some f) :
      Finds s (.function name args scope) f.arity fun count => f.body count scope
  | member {receiver : Value} {m : Member} (args : List Node) (scope : Option Scope)
      (h : m ∈ Member.ofKind receiver.kind) :
      Finds s (.member receiver m.name args scope) m.arity (m.body ⟨m.name, receiver, scope⟩)

/-- The fault of a call that names nothing. -/
def Call.undefined {α : Type} : Call α → Fault
  | .function name _ _ => .undefinedFunction name
  | .member receiver name _ _ => .undefinedMember name receiver.kindName

/-- The members of a kind have different names. -/
theorem Member.find?_of_mem {kind : Kind} {m : Member} (h : m ∈ ofKind kind) :
  find? kind m.name = some m
  := by
  cases kind with
  | string =>
      simp only [ofKind, ofString, List.mem_cons, List.not_mem_nil, or_false] at h
      obtain rfl | rfl | rfl | rfl | rfl | rfl := h <;> rfl
  | boolean => cases h
  | double =>
      simp only [ofKind, ofDouble, List.mem_cons, List.not_mem_nil, or_false] at h
      obtain rfl | rfl | rfl := h <;> rfl
  | integer =>
      obtain rfl := List.mem_singleton.mp h
      rfl

/-- Different kinds have no member in common. -/
theorem Member.kind_eq_of_mem {kind kind' : Kind} {m : Member} (h : m ∈ ofKind kind)
    (h' : m ∈ ofKind kind') :
  kind = kind'
  := by
  have hnames : ∀ name ∈ (ofKind kind).map Member.name,
      name ∈ (ofKind kind').map Member.name → kind = kind' := by
    cases kind <;> cases kind' <;> decide
  apply hnames m.name (List.mem_map_of_mem h) (List.mem_map_of_mem h')

namespace Store

variable {s : Store} {callee : Call Node} {arity : Arity} {body : (count : Nat) → Body count}

theorem callee_of_finds (h : s.Finds callee arity body) :
  s.callee callee = .ok (arity, body)
  := by
  cases h with
  | function args scope h => rw [Store.callee, h]
  | member args scope h => rw [Store.callee, Member.find?_of_mem h]

theorem bodyOf_of_finds (h : s.Finds callee arity body)
    (haccepts : arity.accepts callee.args.length = true) :
  s.bodyOf callee = .ok (body callee.args.length)
  := by
  rw [bodyOf, callee_of_finds h]
  exact if_pos haccepts

theorem callee_of_not_finds (h : ∀ arity body, ¬ s.Finds callee arity body) :
  s.callee callee = fail callee.undefined
  := by
  cases callee with
  | function name args scope =>
      rw [Store.callee]
      cases hf : s.functions.get? name with
      | none => rfl
      | some f => exact absurd (.function args scope hf) (h _ _)
  | member receiver name args scope =>
      rw [Store.callee]
      cases hm : Member.find? receiver.kind name with
      | none => rfl
      | some m =>
          obtain rfl := Member.name_of_find? hm
          exact absurd (.member args scope (List.mem_of_find?_eq_some hm)) (h _ _)

end Store

/-! ### Calls that are refused -/

/-- The first check that a call does not pass, in the order of the checks. -/
inductive Context.Refuses (c : Context) (callee : Call Node) : Fault → Prop where
  | undefined (h : ∀ arity body, ¬ c.store.Finds callee arity body) :
      Refuses c callee callee.undefined
  | arity {arity : Arity} {body : (count : Nat) → Body count}
      (hfinds : c.store.Finds callee arity body) (h : arity.accepts callee.args.length = false) :
      Refuses c callee (.arityMismatch callee.name arity callee.args.length)
  | depth {arity : Arity} {body : (count : Nat) → Body count}
      (hfinds : c.store.Finds callee arity body)
      (haccepts : arity.accepts callee.args.length = true)
      (h : ¬ c.depth < c.limits.maxCallDepth.toNat) :
      Refuses c callee (.callDepthExceeded c.limits.maxCallDepth)

namespace Context

variable {c : Context} {callee : Call Node}

/-- A call that does not find its body does nothing but fail. -/
theorem callCourse_of_error {e : Failure} (h : c.store.bodyOf callee = .error e) :
  c.callCourse callee = .still (.error e) c.counted
  := by
  have hbody : c.counted.store.bodyOf callee = .error e := h
  rw [callCourse, answerCourse]
  cases c.limits.maxCallDepth.toNat - c.depth with
  | zero => rw [Stencil.answerCourse, hbody]
  | succ budget => rw [Stencil.answerCourse, hbody]

/-- A call that is refused does nothing but fail. -/
theorem callCourse_of_refuses {fault : Fault} (h : c.Refuses callee fault) :
  c.callCourse callee = .still (fail fault) c.counted
  := by
  cases h with
  | undefined h =>
      apply callCourse_of_error
      rw [Store.bodyOf, Store.callee_of_not_finds h]
      rfl
  | arity hfinds h =>
      apply callCourse_of_error
      rw [Store.bodyOf, Store.callee_of_finds hfinds]
      simp only [h]
      rfl
  | @depth arity body hfinds haccepts h =>
      have hbody : c.counted.store.bodyOf callee = .ok (body callee.args.length) :=
        Store.bodyOf_of_finds hfinds haccepts
      have hbudget : c.limits.maxCallDepth.toNat - c.depth = 0 := by omega
      rw [callCourse, answerCourse, hbudget, Stencil.answerCourse, hbody]

theorem call_of_refuses {fault : Fault} (h : c.Refuses callee fault) :
  c.call callee = (fail fault, c) ∧ (c.callCourse callee).events = []
  := by
  rw [call_eq_course, callCourse_of_refuses h]
  exact ⟨rfl, rfl⟩

end Context

/-! ### What bodies end with -/

namespace Body

/-- Whatever the body is told, it hands back at once what blocks, or it goes on and ends with a result
of its own that satisfies `P`. -/
def EndsOnly (P : Result → Prop) {count : Nat} : Body count → Prop
  | .done result => P result
  | .inspect _ next => ∀ n, (next n).EndsOnly P
  | .evaluate _ _ next => ∀ r, (Result.blocks r = true ∧ next r = .done r) ∨ (next r).EndsOnly P
  | .call _ _ next => ∀ r, (Result.blocks r = true ∧ next r = .done r) ∨ (next r).EndsOnly P
  | .read _ _ next => ∀ v, (next v).EndsOnly P
  | .isGlobal _ next => ∀ b, (next b).EndsOnly P
  | .isLocal _ _ next => ∀ b, (next b).EndsOnly P
  | .arity _ next => ∀ arity, (next arity).EndsOnly P
  | .bind _ _ _ next => next.EndsOnly P
  | .define _ _ next => next.EndsOnly P
  | .register _ _ _ next => ∀ outcome, (next outcome).EndsOnly P
  | .fork _ next => ∀ context, (next context).EndsOnly P
  | .depth next => ∀ depth, (next depth).EndsOnly P
  | .limits next => ∀ limits, (next limits).EndsOnly P
termination_by structural body => body

variable {P : Result → Prop} {count : Nat}

theorem endsOnly_value (context : Nat) (operand : Operand count) {next : Value → Body count}
    (h : ∀ v, (next v).EndsOnly P) :
  (value context operand next).EndsOnly P
  := by
  intro r
  match r with
  | .ok (.proceed v) => exact .inr (h v)
  | .ok (.returning _ _) | .ok (.terminating _ _) | .error _ => exact .inl ⟨rfl, rfl⟩

theorem endsOnly_withinLimit {operation source : String} {length : Nat}
    {next : Unit → Body count} (hsize : P (fail (.integerOverflow operation)))
    (hlimit : ∀ limit, P (fail (.stringTooLong operation length limit))) (habort : P abort)
    (h : (next ()).EndsOnly P) :
  (Member.withinLimit operation source length next).EndsOnly P
  := by
  rw [Member.withinLimit]
  split
  · apply hsize
  · intro limits
    simp only
    split
    · apply hlimit
    · split
      · apply habort
      · apply h

end Body

theorem Node.ends_mem_events_course (answer : AnswerCourse) (n : Node) (s : Counted) :
  .ends (.node n) (n.course answer s).result ∈ (n.course answer s).events
  := by
  rw [n.course_eq_activity .standard, Activity.events_course]
  simp

/-- The result of a body that computes is its own, or that of an argument. -/
theorem Body.Computes.course_endsOnly {P : Result → Prop} {count : Nat} {body : Body count}
    (hcomputes : body.Computes) (hends : body.EndsOnly P) (answer : AnswerCourse) (limits : Limits)
    (args : Fin count → Node) (a : CountedActivation) :
  P (body.course answer limits args a).result
    ∨ ∃ i, .ends (.node (args i)) (body.course answer limits args a).result
      ∈ (body.course answer limits args a).events
  := by
  induction hcomputes generalizing a with
  | done result h => exact .inl hends
  | @value i next h ih =>
      rw [Body.value, Body.course_evaluate, Body.resume_value]
      have hlast := (args i).ends_mem_events_course answer (a.counted 0)
      have hnode : (Operand.arg i).node args = args i := rfl
      have hnext := hends ((args i).course answer (a.counted 0)).result
      rw [hnode]
      generalize (args i).course answer (a.counted 0) = c at hlast hnext ⊢
      obtain ⟨result, state, trace⟩ := c
      rcases result with e | ⟨v⟩ | ⟨v, scope⟩ | ⟨v, scope⟩
      case ok.proceed =>
        obtain ⟨hblocks, -⟩ | hown := hnext
        · cases hblocks
        apply (ih v hown _).imp_right
        rintro ⟨j, hj⟩
        refine ⟨j, ?_⟩
        rw [Course.events_after]
        exact List.mem_append_right _ hj
      all_goals
        refine .inr ⟨i, ?_⟩
        rw [Course.events_after]
        exact List.mem_append_left _ hlast
  | withinLimit operation source length h ih =>
      apply Member.withinLimit_elim (motive := fun body => body.EndsOnly P → ∀ a,
        P (body.course answer limits args a).result
          ∨ ∃ i, .ends (.node (args i)) (body.course answer limits args a).result
            ∈ (body.course answer limits args a).events) ih _ _ operation source length hends a
      · intro e hown a
        exact .inl hown
      · intro next hnext hown
        apply hnext limits (hown limits)

/-! ### Bodies of members -/

namespace Invocation

variable (c : Invocation) {count : Nat}

/-- The faults with which a body of a member says that its call has not been checked: an argument is
missing, or the receiver is of another kind. -/
inductive Unchecked (c : Invocation) (count : Nat) : Fault → Prop where
  | missing (i : Nat) :
      Unchecked c count (.arityMismatch c.name (.atLeast (UInt64.ofNat (i + 1))) count)
  | stranger : Unchecked c count (.undefinedMember c.name c.receiver.kindName)

/-- The result does not say that the call has not been checked. -/
def Settles (count : Nat) (result : Result) : Prop :=
  ∀ e, result = .error e → ¬ c.Unchecked count e.fault

theorem settles_proceed (v : Value) :
  c.Settles count (proceed v)
  := by rintro e ⟨⟩

theorem settles_fail {fault : Fault} (h : ¬ c.Unchecked count fault) :
  c.Settles count (fail fault)
  := by
  rintro e ⟨⟩
  apply h

theorem settles_ofInt (operation : String) (n : Int) :
  c.Settles count (.ofValue ((Integer.ofInt operation n).map .integer))
  := by
  rw [Integer.ofInt]
  split
  · apply settles_proceed
  · apply settles_fail
    rintro ⟨⟩

theorem settles_toInteger (rounding : Float → Int) (operation : String) (d : Float) :
  c.Settles count (.ofValue ((Double.toInteger rounding operation d).map .integer))
  := by
  rw [Double.toInteger]
  split
  · apply settles_ofInt
  · apply settles_fail
    rintro ⟨⟩

theorem endsOnly_argument {P : Result → Prop} {i : Nat} (hi : i < count) {next : Value → Body count}
    (h : ∀ v, (next v).EndsOnly P) :
  (c.argument i next).EndsOnly P
  := by
  rw [argument, dif_pos hi]
  apply Body.endsOnly_value _ _ h

theorem endsOnly_withinLimit {operation source : String} {length : Nat}
    {next : Unit → Body count} (h : (next ()).EndsOnly (c.Settles count)) :
  (Member.withinLimit operation source length next).EndsOnly (c.Settles count)
  := by
  apply Body.endsOnly_withinLimit
  · apply c.settles_fail
    rintro ⟨⟩
  · intro limit
    apply c.settles_fail
    rintro ⟨⟩
  · apply c.settles_fail
    rintro ⟨⟩
  · apply h

end Invocation

namespace Member

variable {m : Member} {count : Nat}

/-- In a call with as many arguments as it accepts, a member of strings settles what comes of it. -/
theorem endsOnly_of_mem_ofString (hm : m ∈ ofString) (haccepts : m.arity.accepts count = true)
    (c : Invocation) :
  (m.body c count).EndsOnly (c.Settles count)
  := by
  simp only [ofString, List.mem_cons, List.not_mem_nil, or_false] at hm
  obtain rfl | rfl | rfl | rfl | rfl | rfl := hm
  · apply c.settles_proceed
  · apply c.settles_proceed
  · apply c.settles_proceed
  · obtain rfl := Arity.accepts_exactly.mp haccepts
    apply c.endsOnly_argument Nat.one_pos
    intro pattern
    apply c.settles_proceed
  · obtain rfl := Arity.accepts_exactly.mp haccepts
    apply c.endsOnly_argument Nat.one_pos
    intro v
    cases v with
    | integer n =>
        simp only
        split
        · apply c.settles_fail
          rintro ⟨⟩
        · apply c.endsOnly_withinLimit
          apply c.settles_proceed
    | string _ | boolean _ | double _ =>
        apply c.settles_fail
        rintro ⟨⟩
  · obtain rfl := Arity.accepts_exactly.mp haccepts
    apply c.endsOnly_argument Nat.two_pos
    intro pattern
    apply c.endsOnly_argument Nat.one_lt_two
    intro new
    apply c.endsOnly_withinLimit
    apply c.settles_proceed

/-- In a call with as many arguments as it accepts, a member of the receiver's kind settles what comes
of it. -/
theorem endsOnly_of_mem {receiver : Value} (hm : m ∈ ofKind receiver.kind)
    (haccepts : m.arity.accepts count = true) (name : String) (scope : Option Scope) :
  (m.body ⟨name, receiver, scope⟩ count).EndsOnly
    (Invocation.Settles ⟨name, receiver, scope⟩ count)
  := by
  cases receiver with
  | string text => apply endsOnly_of_mem_ofString hm haccepts
  | boolean b => cases hm
  | double d =>
      simp only [Value.kind, ofKind, ofDouble, List.mem_cons, List.not_mem_nil, or_false] at hm
      obtain rfl | rfl | rfl := hm
      · apply Invocation.settles_toInteger
      · apply Invocation.settles_toInteger
      · apply Invocation.settles_toInteger
  | integer n =>
      obtain rfl := List.mem_singleton.mp hm
      apply Invocation.settles_ofInt

/-- What a body of a member provides for calls that have not been checked is not needed. -/
structure NeedsNoFallback (m : Member) (c : Invocation) (args : List Node) (result : Result)
    (events : List Event) : Prop where
  /-- If the member works on the text of its receiver, the receiver is a string. -/
  text : m ∈ ofString → c.receiver.text? = some c.text
  /-- Whatever arguments give and whatever the limits are, the body does not say that an argument is
  missing or that the receiver is of another kind. -/
  body : (m.body c args.length).EndsOnly (c.Settles args.length)
  /-- If the result says so, then it is the result of an argument. -/
  result : c.Settles args.length result ∨ ∃ arg ∈ args, .ends (.node arg) result ∈ events

end Member

namespace Context

variable {c : Context} {callee : Call Node}

/-- What happens in a call that finds its body and room for one more open call. -/
theorem callCourse_of_bodyOf (hroom : c.depth < c.limits.maxCallDepth.toNat)
    {body : Body callee.args.length} (hbody : c.store.bodyOf callee = .ok body) :
  ∃ answer, c.callCourse callee
    = c.counted.calling callee body (body.course answer c.limits callee.args.get)
  := by
  have hfound : c.counted.store.bodyOf callee = .ok body := hbody
  have hrest : c.limits.maxCallDepth.toNat - c.depth
      = c.limits.maxCallDepth.toNat - (c.depth + 1) + 1 := by omega
  have hdepth : ¬ c.limits.maxCallDepth ≤ c.counted.depth := by
    rw [UInt64.le_iff_toNat_le, toNat_counted_depth]
    omega
  rw [callCourse, answerCourse, hrest, Stencil.answerCourse, hfound]
  exact ⟨_, if_neg hdepth⟩

/-- A call of a member that passes all checks needs no fallback. -/
theorem needsNoFallback {receiver : Value} {m : Member} (args : List Node) (scope : Option Scope)
    (hroom : c.depth < c.limits.maxCallDepth.toNat) (hm : m ∈ Member.ofKind receiver.kind)
    (haccepts : m.arity.accepts args.length = true) :
  m.NeedsNoFallback ⟨m.name, receiver, scope⟩ args
    (c.call (.member receiver m.name args scope)).1
    (c.callCourse (.member receiver m.name args scope)).events
  where
  text hstring := by
    have hkind : Kind.string = receiver.kind := Member.kind_eq_of_mem hstring hm
    cases receiver with
    | string text => rfl
    | boolean _ | double _ | integer _ => cases hkind
  body := Member.endsOnly_of_mem hm haccepts m.name scope
  result := by
    obtain ⟨answer, hcourse⟩ := callCourse_of_bodyOf hroom
      (Store.bodyOf_of_finds (.member args scope hm) haccepts)
    have hends := (Member.computes_of_mem_ofKind hm _).course_endsOnly
      (Member.endsOnly_of_mem hm haccepts m.name scope) answer c.limits args.get c.counted.opening
    rw [call_eq_course, hcourse, Counted.events_calling]
    apply hends.imp_right
    rintro ⟨i, hi⟩
    refine ⟨args.get i, List.get_mem args i, ?_⟩
    exact List.mem_cons_of_mem _ (List.mem_append_left _ hi)

/-- A call is refused for the first check that it does not pass; then it fails with that fault, the
context is as it was, and nothing has happened, so that no argument has been evaluated and no variable
read.  Otherwise it gives what its body gives one call deeper, and if it is a call of a member then the
body needs nothing of what it provides for calls that have not been checked. -/
theorem call_refused_or_run (c : Context) (callee : Call Node) :
  (∃ fault, c.Refuses callee fault ∧ c.call callee = (fail fault, c)
      ∧ (c.callCourse callee).events = [])
    ∨ ∃ (hroom : c.depth < c.limits.maxCallDepth.toNat) (arity : Arity)
      (body : (count : Nat) → Body count) (result : Result) (d : Context),
      c.store.Finds callee arity body ∧ arity.accepts callee.args.length = true
        ∧ (c.inside hroom).run callee.args (body callee.args.length) = (result, d)
        ∧ c.call callee = (result, c.withEnvironment d.environment)
        ∧ ∀ receiver m args scope, callee = .member receiver m.name args scope →
          m ∈ Member.ofKind receiver.kind →
            m.NeedsNoFallback ⟨m.name, receiver, scope⟩ args result (c.callCourse callee).events
  := by
  by_cases hfinds : ∃ arity body, c.store.Finds callee arity body
  case neg =>
    have hundefined : c.Refuses callee callee.undefined :=
      .undefined fun arity body h => hfinds ⟨arity, body, h⟩
    exact .inl ⟨_, hundefined, call_of_refuses hundefined⟩
  obtain ⟨arity, body, hfinds⟩ := hfinds
  cases haccepts : arity.accepts callee.args.length with
  | false =>
      have hcount := Refuses.arity hfinds haccepts
      exact .inl ⟨_, hcount, call_of_refuses hcount⟩
  | true =>
      by_cases hroom : c.depth < c.limits.maxCallDepth.toNat
      case neg =>
        have hdepth := Refuses.depth hfinds haccepts hroom
        exact .inl ⟨_, hdepth, call_of_refuses hdepth⟩
      right
      have hcall := call_of_run hroom (Store.bodyOf_of_finds hfinds haccepts) rfl
      refine ⟨hroom, arity, body, _, _, hfinds, haccepts, rfl, hcall, ?_⟩
      rintro receiver m args scope rfl hm
      have hfound := Store.callee_of_finds hfinds
      rw [Store.callee_of_finds (.member args scope hm)] at hfound
      obtain ⟨rfl, -⟩ := Prod.mk.inj (Except.ok.inj hfound)
      have hmember := needsNoFallback args scope hroom hm haccepts
      rwa [hcall] at hmember

/-- The number of arguments comes before the room for a call. -/
example :
  (root ⟨0, 0⟩).call (.member (.string "a") "replace" [.reference "x"] none)
    = (fail (.arityMismatch "replace" (.exactly 2) 1), root ⟨0, 0⟩)
  := rfl

end Context

end Stencil
