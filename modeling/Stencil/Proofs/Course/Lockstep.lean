import Mathlib.Data.List.Forall2
import Stencil.Proofs.Plain

/-!
# Two runs in lockstep

Two runs go in lockstep if whatever happens in one of them happens in the other as well, between
states that are related.  `R` relates the trees that are evaluated and `S` the states.  Related
trees are of the same sort, with related subtrees (`Node.Congruent`), unless it is known of them
otherwise that they run alike.  If the states stay related by what nodes do on their own account,
by reading, binding and forking, and if bodies that satisfy `P` run alike on related arguments, then
so do whole trees and calls (`Lockstep.course`).

The functions that are called in the first run must be eager or have bodies with `P`.
-/

namespace Stencil

/-! ### Courses -/

section Courses

variable {P : {count : Nat} → Body count → Prop} {S : Counted → Counted → Prop}
  {s s' : Counted} {c c' : Course Counted}

/-- Both courses have the same result and end in related states, if the functions that are called in
the first one are eager or have bodies with `P`. -/
def Course.Alike (P : {count : Nat} → Body count → Prop) (S : Counted → Counted → Prop)
    (c c' : Course Counted) : Prop :=
  CallsOnly P c.events → c'.result = c.result ∧ S c.state c'.state

namespace Course.Alike

theorem still (result : Result) (hs : S s s') :
  Alike P S (.still result s) (.still result s')
  := fun _ => ⟨rfl, hs⟩

theorem after (h : Alike P S c c') (before before' : List Moment) :
  Alike P S (c.after before) (c'.after before')
  := by
  intro hcalls
  rw [events_after] at hcalls
  apply h hcalls.of_append.2

theorem during (h : Alike P S c c') {a a' : Activity} (ha : a'.conclude = a.conclude)
    {depth depth' : Size} :
  Alike P S (.during a depth c) (.during a' depth' c')
  := by
  intro hcalls
  rw [events_during] at hcalls
  obtain ⟨hresult, hstate⟩ := h hcalls.of_cons.of_append.1
  refine ⟨?_, hstate⟩
  rw [Course.during, Course.during, ha, hresult]

theorem proceeding (h : Alike P S c c') {next next' : Value → Counted → Course Counted}
    (hnext : ∀ v s s', S s s' → Alike P S (next v s) (next' v s')) :
  Alike P S (c.proceeding next) (c'.proceeding next')
  := by
  intro hcalls
  rcases Result.proceeds_or_blocks c.result with ⟨v, hv⟩ | hblocks
  · rw [proceeding_of_proceed hv, events_after] at hcalls
    obtain ⟨hfirst, hrest⟩ := hcalls.of_append
    obtain ⟨hresult, hstate⟩ := h hfirst
    rw [proceeding_of_proceed hv, proceeding_of_proceed (hresult.trans hv)]
    apply hnext v _ _ hstate hrest
  · rw [proceeding_of_blocks hblocks] at hcalls ⊢
    obtain ⟨hresult, hstate⟩ := h hcalls
    rw [proceeding_of_blocks (hresult ▸ hblocks)]
    exact ⟨hresult, hstate⟩

end Course.Alike

end Courses

/-! ### Trees and calls -/

/-- Both nodes are of the same sort, and their subtrees are related.  What they read or bind is
among the names. -/
inductive Node.Congruent (names : String → Prop) (R : Node → Node → Prop) : Node → Node → Prop where
  | literal (v : Value) : Congruent names R (.literal v) (.literal v)
  | reference {name : String} (hname : names name) :
      Congruent names R (.reference name) (.reference name)
  | assignment {name : String} (hname : names name) {expression expression' : Node}
      (h : R expression expression') :
      Congruent names R (.assignment name expression) (.assignment name expression')
  | dot (member : String) (scope : Option Scope) {receiver receiver' : Node}
      (hreceiver : R receiver receiver') {args args' : List Node}
      (hargs : List.Forall₂ R args args') :
      Congruent names R (.dot receiver member args scope) (.dot receiver' member args' scope)
  | call (name : String) (scope : Option Scope) {args args' : List Node}
      (hargs : List.Forall₂ R args args') :
      Congruent names R (.call name args scope) (.call name args' scope)
  | binary (op : Operator) {left left' right right' : Node} (hleft : R left left')
      (hright : R right right') :
      Congruent names R (.binary op left right) (.binary op left' right')
  | negation {operand operand' : Node} (h : R operand operand') :
      Congruent names R (.negation operand) (.negation operand')
  | root {children children' : List Node} (h : List.Forall₂ R children children') :
      Congruent names R (.root children) (.root children')
  | block (scope : Option Scope) {children children' : List Node}
      (h : List.Forall₂ R children children') :
      Congruent names R (.block children scope) (.block children' scope)
  | returning (scope : Option Scope) {expression expression' : Node}
      (h : R expression expression') :
      Congruent names R (.returning expression scope) (.returning expression' scope)
  | terminating (scope : Option Scope) {expression expression' : Node}
      (h : R expression expression') :
      Congruent names R (.terminating expression scope) (.terminating expression' scope)

namespace Node

/-- The node reads or assigns the name itself. -/
def Mentions (name : String) : Node → Prop
  | reference other => other = name
  | assignment target _ => target = name
  | _ => False

/-- The node with other subtrees. -/
def mapChildren (f : Node → Node) : Node → Node
  | literal v => literal v
  | reference name => reference name
  | assignment name expression => assignment name (f expression)
  | dot receiver member args scope => dot (f receiver) member (args.map f) scope
  | call name args scope => call name (args.map f) scope
  | binary op left right => binary op (f left) (f right)
  | negation operand => negation (f operand)
  | root children => root (children.map f)
  | block children scope => block (children.map f) scope
  | returning expression scope => returning (f expression) scope
  | terminating expression scope => terminating (f expression) scope

theorem mapChildren_id (n : Node) :
  n.mapChildren id = n
  := by cases n <;> simp [mapChildren]

end Node

/-- Both calls call the same with related arguments. -/
inductive Call.Congruent {α β : Type} (R : α → β → Prop) : Call α → Call β → Prop where
  | function (name : String) (scope : Option Scope) {args : List α} {args' : List β}
      (hargs : List.Forall₂ R args args') :
      Congruent R (.function name args scope) (.function name args' scope)
  | member (receiver : Value) (name : String) (scope : Option Scope) {args : List α}
      {args' : List β} (hargs : List.Forall₂ R args args') :
      Congruent R (.member receiver name args scope) (.member receiver name args' scope)

section Congruence

variable {names : String → Prop} {R : Node → Node → Prop}

theorem Node.Congruent.conclude_eq {n n' : Node} (h : n.Congruent names R n') :
  (Activity.node n').conclude = (Activity.node n).conclude
  := by cases h <;> rfl

/-- A node is congruent to the one with other subtrees, if these are related to the old ones. -/
theorem Node.Congruent.mapChildren {n : Node} (hnames : ∀ name, n.Mentions name → names name)
    {f : Node → Node} (h : ∀ child ∈ n.children, R child (f child)) :
  n.Congruent names R (n.mapChildren f)
  := by
  have hall : ∀ {nodes : List Node}, (∀ child ∈ nodes, R child (f child)) →
      List.Forall₂ R nodes (nodes.map f) := by
    intro nodes hnodes
    rw [List.forall₂_map_right_iff, List.forall₂_same]
    apply hnodes
  cases n with
  | literal v => apply literal
  | reference name => apply reference (hnames name rfl)
  | assignment name expression => apply assignment (hnames name rfl) (h _ List.mem_cons_self)
  | dot receiver member args scope =>
      obtain ⟨hreceiver, hargs⟩ := List.forall_mem_cons.mp h
      apply dot member scope hreceiver (hall hargs)
  | call name args scope => apply call name scope (hall h)
  | binary op left right =>
      apply binary op (h _ List.mem_cons_self) (h _ (.tail _ List.mem_cons_self))
  | negation operand => apply negation (h _ List.mem_cons_self)
  | root children => apply root (hall h)
  | block children scope => apply block scope (hall h)
  | returning expression scope => apply returning scope (h _ List.mem_cons_self)
  | terminating expression scope => apply terminating scope (h _ List.mem_cons_self)

namespace Call.Congruent

theorem map {α β : Type} {Q : α → β → Prop} {callee : Call α} {callee' : Call β}
    (h : Congruent Q callee callee') {f : α → Node} {g : β → Node}
    (hQ : ∀ {a b}, Q a b → R (f a) (g b)) :
  Congruent R (callee.map f) (callee'.map g)
  := by
  have hall : ∀ {args args'}, List.Forall₂ Q args args' →
      List.Forall₂ R (args.map f) (args'.map g) := by
    intro args args' hargs
    rw [List.forall₂_map_left_iff, List.forall₂_map_right_iff]
    apply hargs.imp fun _ _ => hQ
  cases h with
  | function name scope hargs => apply function name scope (hall hargs)
  | member receiver name scope hargs => apply member receiver name scope (hall hargs)

variable {callee callee' : Call Node}

theorem forall₂_args (h : Congruent R callee callee') :
  List.Forall₂ R callee.args callee'.args
  := by cases h <;> assumption

/-- Congruent calls find the same body, where the functions are the same. -/
theorem bodyOf (h : Congruent R callee callee') {s s' : Store}
    (hfunctions : ∀ name, s'.functions.get? name = s.functions.get? name) :
  (∃ e, s.bodyOf callee = .error e ∧ s'.bodyOf callee' = .error e)
    ∨ ∃ body : (count : Nat) → Body count, s.bodyOf callee = .ok (body callee.args.length)
      ∧ s'.bodyOf callee' = .ok (body callee'.args.length)
  := by
  obtain ⟨hcallee, hname⟩ : s'.callee callee' = s.callee callee ∧ callee'.name = callee.name := by
    cases h with
    | function name scope hargs => exact ⟨by rw [Store.callee, Store.callee, hfunctions], rfl⟩
    | member receiver name scope hargs => exact ⟨rfl, rfl⟩
  rcases Store.bodyOf_congr hcallee hname h.forall₂_args.length_eq.symm with
    herror | ⟨arity, body, -, hbody, hbody'⟩
  · exact .inl herror
  · exact .inr ⟨body, hbody, hbody'⟩

end Call.Congruent

end Congruence

/-! ### Runs -/

theorem Counted.reading_eq (s : Counted) (name : String) :
  s.reading name
    = (Course.still ((s.read name).1.elim (fail (.undefinedVariable name)) proceed)
        { s with toEnvironment := (s.read name).2 }).after [⟨.reads name, s.depth⟩]
  := rfl

/-- Calls whose bodies run alike are alike, if related states have the same count of open calls. -/
theorem Course.Alike.calling {P : {count : Nat} → Body count → Prop} {S : Counted → Counted → Prop}
    (hdepth : ∀ {s s'}, S s s' → s'.depth = s.depth)
    (hatDepth : ∀ {s s'}, S s s' → ∀ depth,
      S { s with depth := depth } { s' with depth := depth })
    {s s' : Counted} {run run' : CountedActivation → Course CountedActivation}
    (h : Alike P S (run s.opening).outer (run' s'.opening).outer) {callee callee' : Call Node}
    {body : Body callee.args.length} {body' : Body callee'.args.length} :
  Alike P S (s.calling callee body run) (s'.calling callee' body' run')
  := by
  intro hcalls
  rw [Counted.events_calling] at hcalls
  obtain ⟨hresult, hstate⟩ := h hcalls.of_cons.of_append.1
  refine ⟨hresult, ?_⟩
  have hclosed := hatDepth hstate ((run s.opening).outer.state.depth - 1)
  change S _ { (run' s'.opening).outer.state with
    depth := (run' s'.opening).outer.state.depth - 1 }
  rw [hdepth hstate]
  exact hclosed

/-- What goes on after courses that are alike. -/
theorem Course.Alike.acting {P : {count : Nat} → Body count → Prop} {S : Counted → Counted → Prop}
    {c c' : Course Counted} (h : Alike P S c c') {d d' : Course CountedActivation}
    (hnext : c'.result = c.result → S c.state c'.state → Alike P S d.outer d'.outer) :
  Alike P S (d.after c.trace).outer (d'.after c'.trace).outer
  := by
  intro hcalls
  have hevents : (d.after c.trace).outer.events = c.events ++ d.outer.events :=
    events_after c.trace d
  rw [hevents] at hcalls
  obtain ⟨hfirst, hrest⟩ := hcalls.of_append
  obtain ⟨hresult, hstate⟩ := h hfirst
  apply hnext hresult hstate hrest

/-- A body for a list of arguments, and the same body for another list of the same length. -/
theorem Body.course_cast {answer : AnswerCourse} {limits : Limits}
    (body : (count : Nat) → Body count) {count count' : Nat} (h : count = count')
    (args : Fin count' → Node) :
  (body count').course answer limits args
    = (body count).course answer limits (fun i => args (i.cast h))
  := by
  subst h
  rfl

section Alike

variable (P : {count : Nat} → Body count → Prop) (R : Node → Node → Prop)
  (S : Counted → Counted → Prop) (answer : AnswerCourse)

/-- From related states, both trees have courses that are alike. -/
def Node.Alike (n n' : Node) : Prop :=
  ∀ s s', S s s' → Course.Alike P S (n.course answer s) (n'.course answer s')

/-- From related states, congruent calls have courses that are alike. -/
def AnswerCourse.Alike : Prop :=
  ∀ callee callee', callee.Congruent R callee' →
    ∀ s s', S s s' → Course.Alike P S (answer callee s) (answer callee' s')

/-- From related contexts of a caller, the body runs alike on both lists of arguments. -/
def Body.Alike (limits : Limits) {count : Nat} (body : Body count) (args args' : Fin count → Node) :
    Prop :=
  ∀ s s', S s s' →
    Course.Alike P S (body.course answer limits args s.opening).outer
      (body.course answer limits args' s'.opening).outer

end Alike

/-- Runs of trees that are related by `R`, from states that are related by `S`, go in lockstep, as
long as the functions that are called are eager or have bodies with `P`. -/
structure Lockstep (limits : Limits) (P : {count : Nat} → Body count → Prop)
    (names : String → Prop) (R : Node → Node → Prop) (S : Counted → Counted → Prop) : Prop where
  /-- Related trees are congruent, or run alike for another reason. -/
  tree : ∀ {n n'}, R n n' →
    n.Congruent names R n' ∨ ∀ budget, n.Alike P S (answerCourse limits budget) n'
  computes : ∀ {count : Nat} {body : Body count}, body.Computes → P body
  /-- Bodies run alike on related arguments, if the calls and the trees in them do. -/
  body : ∀ {answer : AnswerCourse}, answer.Alike P R S →
    (∀ {n n'}, R n n' → n.Alike P S answer n') →
    ∀ {count : Nat} {body : Body count}, P body → ∀ {args args' : Fin count → Node},
      (∀ i, R (args i) (args' i)) → body.Alike P S answer limits args args'
  depth : ∀ {s s'}, S s s' → s'.depth = s.depth
  atDepth : ∀ {s s'}, S s s' → ∀ depth, S { s with depth := depth } { s' with depth := depth }
  functions : ∀ {s s'}, S s s' → ∀ name,
    s'.store.functions.get? name = s.store.functions.get? name
  isGlobal : ∀ {s s'}, S s s' → ∀ {name}, names name →
    s'.store.globals.contains name = s.store.globals.contains name
  read : ∀ {s s'}, S s s' → ∀ {name}, names name →
    (s'.read name).1 = (s.read name).1
      ∧ S { s with toEnvironment := (s.read name).2 } { s' with toEnvironment := (s'.read name).2 }
  bind : ∀ {s s'}, S s s' → ∀ {name}, names name → ∀ v,
    S { s with toEnvironment := s.bind name (.constant v) }
      { s' with toEnvironment := s'.bind name (.constant v) }
  /-- What has been done to the stores in forks. -/
  fork : ∀ {s s' inner inner'}, S s s' → S inner inner' →
    S { s with store := inner.store } { s' with store := inner'.store }

/-- Nodes whose trees run alike have display texts that are put together alike. -/
theorem Node.courseOfAll_alike {P : {count : Nat} → Body count → Prop} {R : Node → Node → Prop}
    {S : Counted → Counted → Prop} {answer : AnswerCourse} {nodes nodes' : List Node}
    (h : List.Forall₂ R nodes nodes')
    (hnodes : ∀ n ∈ nodes, ∀ n', R n n' → n.Alike P S answer n') (text : String) {s s' : Counted}
    (hs : S s s') :
  Course.Alike P S (courseOfAll answer nodes text s) (courseOfAll answer nodes' text s')
  := by
  induction h generalizing text s s' with
  | nil =>
      rw [courseOfAll]
      apply Course.Alike.still _ hs
  | cons hfirst hrest ih =>
      rw [courseOfAll, courseOfAll]
      rw [List.forall_mem_cons] at hnodes
      apply (hnodes.1 _ hfirst s s' hs).proceeding
      intro v s s' hs
      apply ih hnodes.2 _ hs

/-- A body that computes runs alike on arguments that do. -/
theorem Body.Computes.alike {P : {count : Nat} → Body count → Prop} {S : Counted → Counted → Prop}
    {answer : AnswerCourse} {limits : Limits} {count : Nat} {args args' : Fin count → Node}
    (hargs : ∀ i, (args i).Alike P S answer (args' i)) {body : Body count} (h : body.Computes)
    {a a' : CountedActivation} (hlength : 0 < a.locals.length) (hlength' : 0 < a'.locals.length)
    (ha : S (a.counted 0) (a'.counted 0)) :
  Course.Alike P S (body.course answer limits args a).outer
    (body.course answer limits args' a').outer
  := by
  induction h generalizing a a' with
  | done result h => exact Course.Alike.still result ha
  | @value i next h ih =>
      rw [Body.value, course_evaluate, course_evaluate, resume_value, resume_value]
      simp only [Operand.node]
      apply Course.Alike.acting (hargs i _ _ ha)
      intro hresult hstate
      have hlater : ∀ {s s'}, S s s' →
          S ((a.update 0 s).counted 0) ((a'.update 0 s').counted 0) := by
        intro s s' hs
        rwa [a.counted_update hlength, a'.counted_update hlength']
      rw [hresult]
      rcases ((args i).course answer (a.counted 0)).result with e | ⟨v⟩ | ⟨v, scope⟩ | ⟨v, scope⟩
      case ok.proceed =>
        apply ih v _ _ (hlater hstate)
        · rwa [CountedActivation.update, Activation.update, List.length_set]
        · rwa [CountedActivation.update, Activation.update, List.length_set]
      all_goals exact Course.Alike.still _ (hlater hstate)
  | withinLimit operation source length h ih =>
      rw [course_withinLimit, course_withinLimit]
      cases limits.refusal? operation source length with
      | some e => exact Course.Alike.still _ ha
      | none => apply ih hlength hlength' ha

namespace Lockstep

variable {limits : Limits} {P : {count : Nat} → Body count → Prop} {names : String → Prop}
  {R : Node → Node → Prop} {S : Counted → Counted → Prop}

/-- Related trees run alike, if calls do. -/
theorem node (h : Lockstep limits P names R S) {budget : Nat}
    (hanswer : (Stencil.answerCourse limits budget).Alike P R S) {n n' : Node} (hn : R n n') :
  n.Alike P S (Stencil.answerCourse limits budget) n'
  := by
  -- The subtrees run alike from all related states, since the first ones change the state.
  induction n using Node.induction_on_children generalizing n' with
  | h n ih =>
      rcases h.tree hn with hcongruent | halike
      · intro s s' hs
        have hconclude := hcongruent.conclude_eq
        cases hcongruent with
        | literal v =>
            rw [Node.course]
            apply (Course.Alike.still _ hs).during hconclude
        | @reference name hname =>
            obtain ⟨hvalue, hstate⟩ := h.read hs hname
            rw [Node.course, Node.course, Counted.reading_eq, Counted.reading_eq, hvalue]
            apply ((Course.Alike.still _ hstate).after _ _).during hconclude
        | @assignment name hname expression expression' hexpression =>
            rw [Node.course, Node.course]
            refine Course.Alike.during ?_ hconclude
            simp only [h.isGlobal hs hname]
            split
            · apply Course.Alike.still _ hs
            · apply (ih _ List.mem_cons_self hexpression s s' hs).proceeding
              intro v s s' hs
              apply (Course.Alike.still _ (h.bind hs hname v)).after
        | dot member scope hreceiver hargs =>
            rw [Node.course, Node.course]
            refine Course.Alike.during ?_ hconclude
            apply (ih _ List.mem_cons_self hreceiver s s' hs).proceeding
            intro v s s' hs
            apply hanswer _ _ (.member v member scope hargs) s s' hs
        | call name scope hargs =>
            rw [Node.course, Node.course]
            refine Course.Alike.during ?_ hconclude
            apply hanswer _ _ (.function name scope hargs) s s' hs
        | @binary op left left' right right' hleft hright =>
            rw [Node.course, Node.course]
            refine Course.Alike.during ?_ hconclude
            apply (ih _ List.mem_cons_self hleft s s' hs).proceeding
            intro a s s' hs
            have hboth : Course.Alike P S
                ((right.course (Stencil.answerCourse limits budget) s).proceeding
                  fun b s => .still (.ofValue (op.evaluate a b)) s)
                ((right'.course (Stencil.answerCourse limits budget) s').proceeding
                  fun b s => .still (.ofValue (op.evaluate a b)) s) := by
              apply (ih _ (.tail _ List.mem_cons_self) hright s s' hs).proceeding
              intro b s s' hs
              apply Course.Alike.still _ hs
            cases op.decidedBy? with
            | none => apply hboth
            | some deciding =>
                cases a.truth with
                | error e => apply Course.Alike.still _ hs
                | ok decided =>
                    simp only
                    split
                    · apply Course.Alike.still _ hs
                    · apply hboth
        | negation hoperand =>
            rw [Node.course, Node.course]
            refine Course.Alike.during ?_ hconclude
            apply (ih _ List.mem_cons_self hoperand s s' hs).proceeding
            intro v s s' hs
            apply Course.Alike.still _ hs
        | root hchildren =>
            rw [Node.course, Node.course]
            refine Course.Alike.during ?_ hconclude
            apply Node.courseOfAll_alike hchildren (fun n hn _ => ih n hn) "" hs
        | block scope hchildren =>
            rw [Node.course, Node.course]
            refine Course.Alike.during ?_ hconclude
            intro hcalls
            obtain ⟨hresult, hstate⟩ :=
              Node.courseOfAll_alike hchildren (fun n hn _ => ih n hn) "" hs hcalls
            exact ⟨hresult, h.fork hs hstate⟩
        | returning scope hexpression =>
            rw [Node.course, Node.course]
            refine Course.Alike.during ?_ hconclude
            apply (ih _ List.mem_cons_self hexpression s s' hs).proceeding
            intro v s s' hs
            apply Course.Alike.still _ hs
        | terminating scope hexpression =>
            rw [Node.course, Node.course]
            refine Course.Alike.during ?_ hconclude
            apply (ih _ List.mem_cons_self hexpression s s' hs).proceeding
            intro v s s' hs
            apply Course.Alike.still _ hs
      · apply halike budget

/-- Congruent calls have courses that are alike. -/
theorem answerCourse (h : Lockstep limits P names R S) (budget : Nat) :
  (Stencil.answerCourse limits budget).Alike P R S
  := by
  induction budget with
  | zero =>
      intro callee callee' hcallee s s' hs
      rw [Stencil.answerCourse, Stencil.answerCourse]
      rcases hcallee.bodyOf (h.functions hs) with ⟨e, he, he'⟩ | ⟨body, hbody, hbody'⟩
      · rw [he, he']
        apply Course.Alike.still _ hs
      · rw [hbody, hbody']
        apply Course.Alike.still _ hs
  | succ budget ih =>
      intro callee callee' hcallee s s' hs
      rw [Stencil.answerCourse, Stencil.answerCourse]
      rcases hcallee.bodyOf (h.functions hs) with ⟨e, he, he'⟩ | ⟨body, hbody, hbody'⟩
      · rw [he, he']
        apply Course.Alike.still _ hs
      · rw [hbody, hbody', h.depth hs]
        simp only
        split
        · apply Course.Alike.still _ hs
        · intro hcalls
          rw [Counted.events_calling] at hcalls
          have hlength := hcallee.forall₂_args.length_eq
          have hP : P (body callee.args.length) :=
            (hcalls (.call callee (body callee.args.length)) List.mem_cons_self).body h.computes
              hbody
          have hargs : ∀ i, R (callee.args.get i) (callee'.args.get (i.cast hlength)) :=
            fun i => hcallee.forall₂_args.get i.isLt (i.cast hlength).isLt
          rw [Body.course_cast body hlength callee'.args.get]
          apply Course.Alike.calling h.depth h.atDepth (h.body ih (h.node ih) hP hargs s s' hs)
          rw [Counted.events_calling]
          exact hcalls

/-- Related trees run alike in contexts with the same limits and related states. -/
theorem course {c c' : Context} (h : Lockstep c.limits P names R S) (hlimits : c'.limits = c.limits)
    (hdepth : c'.depth = c.depth) (hs : S c.counted c'.counted) {n n' : Node} (hn : R n n') :
  Course.Alike P S (c.course n) (c'.course n')
  := by
  have hanswer : c'.answerCourse = c.answerCourse := by
    rw [Context.answerCourse, Context.answerCourse, hlimits, hdepth]
  rw [Context.course, Context.course, hanswer]
  apply h.node (h.answerCourse _) hn _ _ hs

end Lockstep

end Stencil
