import Stencil.Proofs.Course.Agreement
import Stencil.Proofs.Course.Induction

/-!
# The count of open calls

Throughout a run the count that the active context keeps is the count at the start, plus the
number of calls in progress; it never exceeds the limit, counting up never overflows and
counting down never goes below zero; and when an evaluation or a call ends, whatever its
result, the count is what it was before (`Context.depth_accounted`).

The induction is on the course of the run, with the invariant `Tallied`: between the start
and the end of a call the count is one higher than around it.
-/

namespace Stencil

/-- How many calls are in progress after events. -/
def openCalls (events : List Event) : Nat := (pending events).countP Activity.isCall

/-- The count inside an activity that starts at the given count. -/
def Activity.depthInside (a : Activity) (depth : Size) : Size :=
  if a.isCall then depth + 1 else depth

@[simp]
theorem Activity.depthInside_call (callee : Call Node) (body : Body callee.args.length)
    (depth : Size) :
  (call callee body).depthInside depth = depth + 1
  := rfl

/-- The moments carry the given count, and those inside a call, which starts below the
limit, carry a count that is one higher. -/
inductive Tallied (limit : Size) : Size → List Moment → Prop where
  | nil {depth : Size} : Tallied limit depth []
  | point {depth : Size} {e : Event} {rest : List Moment} (he : e.isPoint = true)
      (hrest : Tallied limit depth rest) : Tallied limit depth (⟨e, depth⟩ :: rest)
  | activity {depth : Size} (a : Activity) (result : Result) {inner rest : List Moment}
      (hroom : a.isCall = true → depth < limit)
      (hinner : Tallied limit (a.depthInside depth) inner)
      (hrest : Tallied limit depth rest) :
      Tallied limit depth
        (⟨.starts a, depth⟩ :: (inner ++ ⟨.ends a result, a.depthInside depth⟩ :: rest))

/-- The count at a moment is right. -/
structure Moment.Accounted (m : Moment) (limit start : Size) (before : List Event) : Prop where
  /-- The count is that of the start and one for each call in progress. -/
  counts : m.depth.toNat = start.toNat + openCalls before
  le_limit : m.depth ≤ limit
  /-- Where a call starts, counting up does not overflow. -/
  up : ∀ callee body, m.event = .starts (.call callee body) →
    (m.depth + 1).toNat = m.depth.toNat + 1
  /-- Where a call ends, counting down does not go below zero. -/
  down : ∀ callee body result, m.event = .ends (.call callee body) result →
    (m.depth - 1).toNat + 1 = m.depth.toNat

theorem toNat_depthInside {a : Activity} {depth limit : Size}
    (hroom : a.isCall = true → depth < limit) :
  (a.depthInside depth).toNat = depth.toNat + [a].countP Activity.isCall
  := by
  rw [Activity.depthInside]
  split
  · rename_i ha
    rw [Size.toNat_add_one_of_lt (hroom ha), List.countP_singleton, if_pos ha]
  · rename_i ha
    rw [List.countP_singleton, if_neg ha, Nat.add_zero]

namespace Tallied

variable {limit depth : Size}

theorem append {t t' : List Moment} (h : Tallied limit depth t) (h' : Tallied limit depth t') :
  Tallied limit depth (t ++ t')
  := by
  induction h with
  | nil => apply h'
  | point he _ ih => apply point he (ih h')
  | activity a result hroom hinner _ _ ih =>
      rw [List.cons_append, List.append_assoc, List.cons_append]
      apply activity a result hroom hinner (ih h')

theorem nested {t : List Moment} (h : Tallied limit depth t) :
  Nested (t.map Moment.event)
  := by
  induction h with
  | nil => apply Nested.nil
  | point he _ ih => apply Nested.point he ih
  | activity a result _ _ _ ihinner ih =>
      rw [List.map_cons, List.map_append, List.map_cons]
      apply Nested.activity a result ihinner ih

/-- In tallied moments every count is right. -/
theorem accounted {t before after : List Moment} {m : Moment} (h : Tallied limit depth t)
    (hle : depth ≤ limit) (hsplit : t = before ++ m :: after) :
  m.Accounted limit depth (before.map Moment.event)
  := by
  induction h generalizing before after with
  | nil => simp at hsplit
  | @point depth e rest he _ ih =>
      cases before with
      | nil =>
          obtain ⟨rfl, -⟩ := List.cons.inj hsplit
          constructor
          · rfl
          · apply hle
          · rintro callee body rfl
            contradiction
          · rintro callee body result rfl
            contradiction
      | cons e' before =>
          obtain ⟨rfl, hrest⟩ := List.cons.inj hsplit
          obtain ⟨hcounts, hlimit, hup, hdown⟩ := ih hle hrest
          refine ⟨?_, hlimit, hup, hdown⟩
          rw [hcounts, openCalls, openCalls, List.map_cons, pending_point he]
  | @activity depth a result inner rest hroom hinner _ ihinner ih =>
      have hdepth := toNat_depthInside hroom
      have hinside : a.depthInside depth ≤ limit := by
        rw [Activity.depthInside]
        split
        · rename_i ha
          have hlt := UInt64.lt_iff_toNat_lt.mp (hroom ha)
          rw [UInt64.le_iff_toNat_le, Size.toNat_add_one_of_lt (hroom ha)]
          omega
        · apply hle
      rcases eq_or_inside_or_behind hsplit with
        ⟨rfl, rfl, -⟩ | ⟨before, after, rfl, rfl, -⟩ | ⟨rfl, rfl, -⟩ | ⟨before, rfl, hrest⟩
      · constructor
        · rfl
        · apply hle
        · intro callee body h
          obtain rfl := Event.starts.inj h
          apply Size.toNat_add_one_of_lt (hroom rfl)
        · intro callee body result h
          cases h
      · -- The one call that the count inside is higher by is the outermost pending activity.
        obtain ⟨hcounts, hlimit, hup, hdown⟩ := ihinner hinside rfl
        refine ⟨?_, hlimit, hup, hdown⟩
        have hnested := hinner.nested
        rw [List.map_append] at hnested
        rw [hcounts, hdepth, List.map_cons, openCalls, openCalls, pending_inside hnested,
          List.countP_append]
        omega
      · constructor
        · rw [hdepth, List.map_cons, openCalls, pending_within hinner.nested]
        · apply hinside
        · intro callee body h
          cases h
        · intro callee body result h
          obtain ⟨rfl, rfl⟩ := Event.ends.inj h
          rw [Activity.depthInside_call, UInt64.add_sub_cancel,
            Size.toNat_add_one_of_lt (hroom rfl)]
      · obtain ⟨hcounts, hlimit, hup, hdown⟩ := ih hle hrest
        refine ⟨?_, hlimit, hup, hdown⟩
        rw [hcounts, List.map_cons, List.map_append, List.map_cons, openCalls, openCalls,
          pending_behind hinner.nested]

end Tallied

/-! ### Runs -/

/-- A course is tallied, and ends with the count with which it starts. -/
structure Course.TalliedFrom (c : Course Counted) (limit : Size) (s : Counted) : Prop where
  trace : Tallied limit s.depth c.trace
  restored : c.state.depth = s.depth

/-- A course of a body is tallied if all contexts have the same count, and then they end
with that count. -/
def Course.TalliedFromLevel (c : Course CountedActivation) (limit : Size)
    (a : CountedActivation) : Prop :=
  ∀ depth, a.Level depth → Tallied limit depth c.trace ∧ c.state.Level depth

/-- Nodes, bodies and calls give tallied courses. -/
theorem Course.TalliedFrom.closed (limits : Limits) :
  Course.ClosedAll limits (fun s c => c.TalliedFrom limits.maxCallDepth s)
    (fun a c => c.TalliedFromLevel limits.maxCallDepth a)
  where
  still result s := ⟨.nil, rfl⟩
  reading s name := ⟨.point rfl .nil, rfl⟩
  binding s name v := ⟨.point rfl .nil, rfl⟩
  proceeding s c next h hnext := by
    rcases Result.proceeds_or_blocks c.result with ⟨v, hv⟩ | hblocks
    · rw [Course.proceeding_of_proceed hv]
      obtain ⟨htrace, hrestored⟩ := hnext v hv
      rw [h.restored] at htrace hrestored
      constructor
      · apply h.trace.append htrace
      · apply hrestored
    · rw [Course.proceeding_of_blocks hblocks]
      apply h
  inForkOf s c h := ⟨h.trace, rfl⟩
  node s n c h _ := by
    constructor
    · rw [Course.during, h.restored]
      apply Tallied.activity (.node n) _ nofun h.trace .nil
    · apply h.restored
  calling s callee body run hroom hrun := by
    obtain ⟨htrace, hlevel⟩ := hrun s.opening (s.depth + 1) fun _ => rfl
    constructor
    · rw [Counted.calling, Course.during, hlevel.counted]
      apply Tallied.activity (.call callee body) _ (fun _ => hroom) htrace .nil
    · rw [Counted.calling, Course.during, hlevel.counted]
      apply UInt64.add_sub_cancel
  done result a depth ha := ⟨.nil, ha⟩
  acting a context c c' h h' depth ha := by
    obtain ⟨htrace, hrestored⟩ := h
    rw [ha.counted] at htrace hrestored
    obtain ⟨htrace', hlevel⟩ := h' depth (ha.update context hrestored)
    constructor
    · apply htrace.append htrace'
    · apply hlevel
  defining a name v c h depth ha := by
    obtain ⟨htrace, hlevel⟩ := h depth ha
    rw [ha 0]
    constructor
    · apply Tallied.point rfl htrace
    · apply hlevel
  registering a name f c h depth ha := by
    obtain ⟨htrace, hlevel⟩ := h depth ha
    rw [ha 0]
    constructor
    · apply Tallied.point rfl htrace
    · apply hlevel
  forking a context c h depth ha := h depth (ha.fork context)

/-- Every count of a course is right, and the last one is the first one. -/
structure Course.Accounted (c : Course Counted) (limit start : Size) : Prop where
  moments : ∀ before m after, c.trace = before ++ m :: after →
    m.Accounted limit start (before.map Moment.event)
  restored : c.state.depth = start

theorem Course.TalliedFrom.accounted {c : Course Counted} {limit : Size} {s : Counted}
    (h : c.TalliedFrom limit s) (hle : s.depth ≤ limit) :
  c.Accounted limit s.depth
  where
  moments _ _ _ hsplit := h.trace.accounted hle hsplit
  restored := h.restored

namespace Context

variable (c : Context)

theorem counted_depth_le :
  c.counted.depth ≤ c.limits.maxCallDepth
  := by
  rw [UInt64.le_iff_toNat_le, toNat_counted_depth]
  apply c.depth_le

/-- Evaluating a node in a context, and calling a function or a member from it, keep account
of the open calls: the count is right at every moment of the course, and it is that of the
context again at the end, whatever the result is.  The course is that of the very evaluation
or call. -/
theorem depth_accounted (n : Node) (callee : Call Node) :
  c.counted.depth.toNat = c.depth
    ∧ (c.course n).Accounted c.limits.maxCallDepth c.counted.depth
    ∧ c.evaluate n
      = ((c.course n).result, c.withEnvironment (c.course n).state.toEnvironment)
    ∧ (c.callCourse callee).Accounted c.limits.maxCallDepth c.counted.depth
    ∧ c.call callee
      = ((c.callCourse callee).result,
          c.withEnvironment (c.callCourse callee).state.toEnvironment)
  := by
  have h := Course.TalliedFrom.closed c.limits
  and_intros
  · apply c.toNat_counted_depth
  · apply (c.course_induction h n).accounted c.counted_depth_le
  · apply c.evaluate_eq_course
  · apply (c.callCourse_induction h callee).accounted c.counted_depth_le
  · apply c.call_eq_course

end Context

end Stencil
