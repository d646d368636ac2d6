import Stencil.Function.Stock
import Stencil.Proofs.Course.Changes
import Stencil.Proofs.Plain

/-!
# The frame of an evaluation

An evaluation binds only local variables of its context, and only those which its tree assigns
outside of all blocks (`Node.assigned`): everything else of the context is afterwards what it was,
whatever the result is (`Context.evaluate_framed`).  The functions that are called must be quiet:
they bind nothing in the context of their caller, and neither define nor register anything
(`Body.Quiet`).  This is asked also of what they evaluate besides their arguments: a function that
takes the inside of a block out of its argument may not evaluate it where its caller is
(`Context.not_evaluate_framed`).

A fork has local variables of its own, so that what happens there leaves those of the context as
they are.  So the induction follows the context of the caller, number `0`, and asks nothing of what
a body binds elsewhere (`Body.BindsOnly`).
-/

namespace Stencil

/-! ### Trees -/

namespace Node

/-- Whether the node evaluates its subtrees in a fork. -/
def isBlock : Node → Bool
  | block _ _ => true
  | _ => false

mutual

/-- The names that a tree assigns outside of all its blocks. -/
def assigned : Node → List String
  | literal _ => []
  | reference _ => []
  | assignment name expression => name :: expression.assigned
  | dot receiver _ args _ => receiver.assigned ++ assignedByAll args
  | call _ args _ => assignedByAll args
  | binary _ left right => left.assigned ++ right.assigned
  | negation operand => operand.assigned
  | root children => assignedByAll children
  | block _ _ => []
  | returning expression _ => expression.assigned
  | terminating expression _ => expression.assigned

/-- The names that several trees assign outside of all their blocks. -/
def assignedByAll : List Node → List String
  | [] => []
  | n :: rest => n.assigned ++ assignedByAll rest

end

theorem mem_assignedByAll {name : String} {nodes : List Node} :
  name ∈ assignedByAll nodes ↔ ∃ n ∈ nodes, name ∈ n.assigned
  := by
  induction nodes with
  | nil => simp [assignedByAll]
  | cons n rest ih => simp [assignedByAll, ih]

/-- The node assigns the name itself. -/
def Assigns (name : String) : Node → Prop
  | assignment target _ => target = name
  | _ => False

theorem mem_assigned {name : String} {n : Node} :
  name ∈ n.assigned
    ↔ n.Assigns name ∨ (∃ child ∈ n.children, name ∈ child.assigned) ∧ ¬ n.isBlock = true
  := by cases n <;> simp [assigned, mem_assignedByAll, Assigns, children, isBlock, eq_comm]

/-- A name is assigned outside of all blocks exactly if an assignment to it occurs in the tree and
no enclosing node is a block. -/
theorem mem_assigned_iff {name : String} {n : Node} :
  name ∈ n.assigned
    ↔ ∃ expression enclosing, Occurs (.assignment name expression) enclosing n
      ∧ ∀ outer ∈ enclosing, ¬ outer.isBlock = true
  := by
  apply (exposed_iff fun _ => mem_assigned).trans
  constructor
  · rintro ⟨m, enclosing, hoccurs, hassigns, houter⟩
    cases m with
    | assignment target expression =>
        obtain rfl := hassigns
        exact ⟨expression, enclosing, hoccurs, houter⟩
    | _ => contradiction
  · rintro ⟨expression, enclosing, hoccurs, houter⟩
    exact ⟨_, enclosing, hoccurs, rfl, houter⟩

/-- A name is not assigned outside of blocks exactly if every assignment to it is in a block. -/
theorem not_mem_assigned_iff {name : String} {n : Node} :
  name ∉ n.assigned
    ↔ ∀ expression enclosing, Occurs (.assignment name expression) enclosing n →
      ∃ outer ∈ enclosing, outer.isBlock = true
  := by
  rw [mem_assigned_iff]
  simp only [not_exists, not_and, Classical.not_forall, Classical.not_not, exists_prop]

/-- The names that a subtree assigns, unless the node is a block. -/
theorem assigned_subset_of_mem_children {n child : Node} (hchild : child ∈ n.children)
    (hblock : n.isBlock = false) :
  child.assigned ⊆ n.assigned
  := by
  intro name hname
  rw [mem_assigned, hblock]
  exact .inr ⟨⟨child, hchild, hname⟩, Bool.false_ne_true⟩

end Node

/-! ### Environments -/

/-- Nothing is different between two environments but how often variables have been read and what
`names` stand for locally. -/
structure Environment.Framed (names : List String) (e e' : Environment) : Prop where
  globals : e'.store.globals = e.store.globals
  functions : e'.store.functions = e.store.functions
  /-- No local name disappears. -/
  kept : ∀ name, e.locals.contains name = true → e'.locals.contains name = true
  locals : ∀ name, name ∉ names → e'.locals.get? name = e.locals.get? name

namespace Environment.Framed

variable {names others : List String} {e e' e'' : Environment}

theorem refl (e : Environment) :
  Framed names e e
  := ⟨rfl, rfl, fun _ => id, fun _ _ => rfl⟩

theorem trans (h : Framed names e e') (h' : Framed names e' e'') :
  Framed names e e''
  where
  globals := h'.globals.trans h.globals
  functions := h'.functions.trans h.functions
  kept name hname := h'.kept name (h.kept name hname)
  locals name hname := (h'.locals name hname).trans (h.locals name hname)

/-- If only the store is different, nothing is said about local names. -/
theorem of_store {store : Store} (hglobals : store.globals = e.store.globals)
    (hfunctions : store.functions = e.store.functions) :
  Framed names e { e with store := store }
  := ⟨hglobals, hfunctions, fun _ => id, fun _ _ => rfl⟩

theorem read (e : Environment) (name : String) :
  Framed names e (e.read name).2
  := by
  rw [Environment.read]
  split
  · apply of_store (e.store.globals_read _) (e.store.functions_read _)
  · apply refl

theorem bind (e : Environment) {name : String} (hname : name ∈ names) (v : Variable) :
  Framed names e (e.bind name v)
  where
  globals := e.store.globals_allocate v
  functions := e.store.functions_allocate v
  kept other hother := by rw [Environment.bind, Table.contains_insert, hother, Bool.or_true]
  locals other hother := by
    have hne : other ≠ name := by
      rintro rfl
      exact hother hname
    simp [Environment.bind, hne]

/-- What changes in a context of a body leaves the context of its caller as it is, unless it is
that context. -/
theorem update {a : Activation} (hlength : 0 < a.locals.length) {context : Nat}
    {env : Environment} (h : Framed others (a.environment context) env)
    (hothers : context = 0 → others ⊆ names) :
  Framed names (a.environment 0) ((a.update context env).environment 0)
  where
  globals := h.globals
  functions := h.functions
  kept name hname := by
    rw [a.environment_update context 0 env hlength]
    split
    · rename_i hcontext
      subst hcontext
      apply h.kept name hname
    · apply hname
  locals name hname := by
    rw [a.environment_update context 0 env hlength]
    split
    · rename_i hcontext
      subst hcontext
      apply h.locals name fun hmem => hname (hothers rfl hmem)
    · rfl

theorem fork {a : Activation} (hlength : 0 < a.locals.length) (context : Nat) :
  Framed names (a.environment 0) ((a.fork context).environment 0)
  where
  globals := rfl
  functions := rfl
  kept name hname := by
    rw [a.environment_fork context 0 hlength]
    apply hname
  locals name hname := by rw [a.environment_fork context 0 hlength]

end Environment.Framed

/-! ### Bodies -/

namespace Body

/-- What a body may use after it has looked into an argument: what it may use anyway, and, if it
may use the argument, trees that assign nothing outside of blocks but what the argument does. -/
def MayUseAfter {count : Nat} (mayUse : Operand count → Prop) (i : Fin count) (n : Node)
    (operand : Operand count) : Prop :=
  mayUse operand
    ∨ mayUse (.arg i) ∧ ∃ part : Node, operand = .tree part ∧ part.assigned ⊆ n.assigned

/-- In the context of the caller, the body binds only names with `mayBind`, and evaluates or hands
on only operands with `mayUse`; and it neither defines nor registers anything. -/
def BindsOnly (mayBind : String → Prop) {count : Nat} :
    Body count → (mayUse : Operand count → Prop) → Prop
  | .done _, _ => True
  | .inspect i next, mayUse => ∀ n, (next n).BindsOnly mayBind (MayUseAfter mayUse i n)
  | .evaluate context operand next, mayUse =>
      (context = 0 → mayUse operand) ∧ ∀ r, (next r).BindsOnly mayBind mayUse
  | .call context callee next, mayUse =>
      (context = 0 → ∀ operand ∈ callee.args, mayUse operand)
        ∧ ∀ r, (next r).BindsOnly mayBind mayUse
  | .read _ _ next, mayUse => ∀ v, (next v).BindsOnly mayBind mayUse
  | .isGlobal _ next, mayUse => ∀ b, (next b).BindsOnly mayBind mayUse
  | .isLocal _ _ next, mayUse => ∀ b, (next b).BindsOnly mayBind mayUse
  | .arity _ next, mayUse => ∀ arity, (next arity).BindsOnly mayBind mayUse
  | .bind context name _ next, mayUse =>
      (context = 0 → mayBind name) ∧ next.BindsOnly mayBind mayUse
  | .define _ _ _, _ => False
  | .register _ _ _ _, _ => False
  | .fork _ next, mayUse => ∀ inner, inner ≠ 0 → (next inner).BindsOnly mayBind mayUse
  | .depth next, mayUse => ∀ depth, (next depth).BindsOnly mayBind mayUse
  | .limits next, mayUse => ∀ limits, (next limits).BindsOnly mayBind mayUse
termination_by structural body => body

/-- The body binds nothing in the context of its caller, neither by itself nor by a tree of its
own, and neither defines nor registers anything. -/
def Quiet {count : Nat} (body : Body count) : Prop :=
  body.BindsOnly (fun _ => False) fun operand => ∀ n, operand = .tree n → n.assigned = []

/-- The body does not bind, define or register anything next. -/
def KeepsNames {count : Nat} : Body count → Prop
  | .bind _ _ _ _ => False
  | .define _ _ _ => False
  | .register _ _ _ _ => False
  | _ => True

/-- The body itself binds, defines and registers nothing. -/
def Idle {count : Nat} (body : Body count) : Prop := body.Always KeepsNames

variable {count : Nat} {mayBind : String → Prop} {mayUse : Operand count → Prop}

theorem BindsOnly.resume {next : Result → Body count}
    (h : ∀ r, (next r).BindsOnly mayBind mayUse) (result : Result) :
  (resume next result).BindsOnly mayBind mayUse
  := by
  apply resume_elim (motive := fun body => body.BindsOnly mayBind mayUse) h
  intro e
  trivial

theorem bindsOnly_value {context : Nat} {operand : Operand count}
    (hoperand : context = 0 → mayUse operand) {next : Value → Body count}
    (h : ∀ v, (next v).BindsOnly mayBind mayUse) :
  (value context operand next).BindsOnly mayBind mayUse
  := by
  constructor
  · apply hoperand
  · intro r
    match r with
    | .ok (.proceed v) => apply h
    | .ok (.returning _ _) | .ok (.terminating _ _) | .error _ => trivial

theorem bindsOnly_concatenation {context : Nat} {operands : List (Operand count)}
    (hoperands : context = 0 → ∀ operand ∈ operands, mayUse operand) (text : String) :
  (concatenation context operands text).BindsOnly mayBind mayUse
  := by
  induction operands generalizing text with
  | nil => trivial
  | cons operand rest ih =>
      rw [concatenation]
      apply bindsOnly_value
      · intro hcontext
        apply hoperands hcontext operand List.mem_cons_self
      · intro v
        apply ih
        intro hcontext other hother
        apply hoperands hcontext other (List.mem_cons_of_mem operand hother)

/-- Bodies that compute are quiet. -/
theorem Computes.quiet {body : Body count} (h : body.Computes) :
  body.Quiet
  := by
  induction h with
  | done result h => trivial
  | value i h ih => exact bindsOnly_value (fun _ => nofun) ih
  | withinLimit operation source length h ih =>
      exact Member.withinLimit_elim (motive := Quiet) ih (fun _ => trivial) id _ _ _

end Body

namespace Function

theorem idle_unwrap (arity : Arity) (count : Nat) (scope : Option Scope) :
  ((unwrap arity).body count scope).Idle
  := by
  simp only [unwrap, argumentTree]
  split
  · refine ⟨trivial, fun n => ?_⟩
    simp only
    split
    · trivial
    · exact ⟨trivial, fun _ => trivial⟩
  · trivial

theorem idle_forward (arity : Arity) (target : String) (count : Nat) (scope : Option Scope) :
  ((forward arity target).body count scope).Idle
  := ⟨trivial, fun _ => trivial⟩

end Function

/-- What a node binds in its context, and what it has evaluated there, is accounted for by the
names that its tree assigns outside of blocks. -/
theorem Node.bindsOnly_body (n : Node) :
  n.body.BindsOnly (· ∈ n.assigned)
    fun operand => (operand.node n.children.get).assigned ⊆ n.assigned
  := by
  have huse : n.isBlock = false → ∀ i : Fin n.children.length,
      (n.children.get i).assigned ⊆ n.assigned :=
    fun hblock i => assigned_subset_of_mem_children (List.get_mem _ i) hblock
  cases n with
  | literal v => trivial
  | reference name => exact fun v => trivial
  | assignment name expression =>
      intro isGlobal
      simp only
      split
      · trivial
      · apply Body.bindsOnly_value (fun _ => huse rfl _)
        intro v
        exact ⟨fun _ => List.mem_cons_self, trivial⟩
  | dot receiver member args scope =>
      apply Body.bindsOnly_value (fun _ => huse rfl _)
      intro v
      refine ⟨fun _ operand hoperand => ?_, fun r => trivial⟩
      obtain ⟨i, -, rfl⟩ := List.mem_map.mp hoperand
      apply huse rfl
  | call name args scope =>
      refine ⟨fun _ operand hoperand => ?_, fun r => trivial⟩
      obtain ⟨i, rfl⟩ := Operand.exists_of_mem_all hoperand
      apply huse rfl
  | binary op left right =>
      apply Body.bindsOnly_value (fun _ => huse rfl _)
      intro a
      have hright : ∀ next : Value → Result,
          (Body.value 0 (.arg ⟨1, Nat.one_lt_two⟩) fun b => .done (next b)).BindsOnly
            (· ∈ (binary op left right).assigned)
            fun operand => (operand.node [left, right].get).assigned
              ⊆ (binary op left right).assigned :=
        fun next => Body.bindsOnly_value (fun _ => huse rfl ⟨1, Nat.one_lt_two⟩) fun b => trivial
      cases op.decidedBy? with
      | none => apply hright
      | some deciding =>
          cases a.truth with
          | error e => trivial
          | ok decided =>
              simp only
              split
              · trivial
              · apply hright
  | negation operand => exact Body.bindsOnly_value (fun _ => huse rfl _) fun v => trivial
  | root children =>
      apply Body.bindsOnly_concatenation
      intro _ operand hoperand
      obtain ⟨i, rfl⟩ := Operand.exists_of_mem_all hoperand
      apply huse rfl
  | block children scope =>
      -- The context in which a block evaluates its children is not that of the caller.
      intro inner hinner
      apply Body.bindsOnly_concatenation
      intro hzero
      contradiction
  | returning expression scope => exact Body.bindsOnly_value (fun _ => huse rfl _) fun v => trivial
  | terminating expression scope =>
      exact Body.bindsOnly_value (fun _ => huse rfl _) fun v => trivial

/-! ### Runs -/

/-- If the functions that are called in the course are eager or quiet, then it changes nothing but
what `names` stand for locally. -/
def Course.FramedFrom (names : List String) (s : Counted) (c : Course Counted) : Prop :=
  CallsOnly Body.Quiet c.events → Environment.Framed names s.toEnvironment c.state.toEnvironment

section Runs

variable {answer : AnswerCourse} {limits : Limits}

/-- A body changes nothing of the context of its caller but what `names` stand for, if they have
all that it binds there, and all that is assigned by what it uses there. -/
theorem Body.course_framed
    (hanswer : ∀ callee s,
      (answer callee s).FramedFrom (Node.assignedByAll callee.args) s)
    {count : Nat} {args : Fin count → Node}
    (hargs : ∀ i s, ((args i).course answer s).FramedFrom (args i).assigned s)
    {names : List String} {mayBind : String → Prop} {mayUse : Operand count → Prop}
    (hbind : ∀ name, mayBind name → name ∈ names)
    (huse : ∀ operand, mayUse operand → (operand.node args).assigned ⊆ names)
    {body : Body count} (hbody : body.BindsOnly mayBind mayUse)
    (hown : body.Always
      (OwnTree fun n => ∀ s, (n.course answer s).FramedFrom n.assigned s))
    (a : CountedActivation) (hlength : 0 < a.locals.length)
    (hcalls : CallsOnly Body.Quiet (body.course answer limits args a).events) :
  Environment.Framed names (a.environment 0)
    ((body.course answer limits args a).state.environment 0)
  := by
  have hlater : ∀ {a : CountedActivation} (context : Nat) (s : Counted), 0 < a.locals.length →
      0 < (a.update context s).locals.length := by
    intro a context s hlength
    rw [CountedActivation.update, Activation.update, List.length_set]
    apply hlength
  induction body using Body.induction_on_resume generalizing a with
  | done result => apply Environment.Framed.refl
  | inspect i next ih =>
      apply ih (args i) hargs _ (hbody _) (hown.2 _) _ hlength hcalls
      rintro operand (hmay | ⟨harg, part, rfl, hsub⟩)
      · apply huse operand hmay
      · apply List.Subset.trans hsub (huse (.arg i) harg)
  | evaluate context operand next ih =>
      have hoperand : ∀ s, ((operand.node args).course answer s).FramedFrom
          (operand.node args).assigned s :=
        OwnTree.node hown.1 hargs
      rw [Body.course_evaluate, Course.events_after] at hcalls
      rw [Body.course_evaluate]
      obtain ⟨hfirst, hrest⟩ := hcalls.of_append
      apply (Environment.Framed.update hlength (hoperand _ hfirst) ?_).trans
      · exact ih _ hargs huse (BindsOnly.resume hbody.2 _) (OwnTree.resume hown.2 _) _
          (hlater context _ hlength) hrest
      · intro hcontext
        apply huse operand (hbody.1 hcontext)
  | call context callee next ih =>
      rw [Body.course_call, Course.events_after] at hcalls
      rw [Body.course_call]
      obtain ⟨hfirst, hrest⟩ := hcalls.of_append
      apply (Environment.Framed.update hlength (hanswer _ _ hfirst) ?_).trans
      · exact ih _ hargs huse (BindsOnly.resume hbody.2 _) (OwnTree.resume hown.2 _) _
          (hlater context _ hlength) hrest
      · intro hcontext name hname
        obtain ⟨n, hn, hassigned⟩ := Node.mem_assignedByAll.mp hname
        rw [Call.args_map] at hn
        obtain ⟨operand, hoperand, rfl⟩ := List.mem_map.mp hn
        apply huse operand (hbody.1 hcontext operand hoperand) hassigned
  | read context name next ih =>
      rw [Body.course, Course.events_after] at hcalls
      rw [Body.course]
      have hread : Environment.Framed [] (a.environment context)
          ((a.environment context).read name).2 := .read _ name
      apply (Environment.Framed.update hlength hread ?_).trans
      · apply ih _ hargs huse (hbody _) (hown.2 _) _ (hlater context _ hlength)
          hcalls.of_append.2
      · intro _
        apply List.nil_subset
  | isGlobal name next ih => apply ih _ hargs huse (hbody _) (hown.2 _) _ hlength hcalls
  | isLocal context name next ih => apply ih _ hargs huse (hbody _) (hown.2 _) _ hlength hcalls
  | arity name next ih => apply ih _ hargs huse (hbody _) (hown.2 _) _ hlength hcalls
  | bind context name v next ih =>
      rw [Body.course, Course.events_after] at hcalls
      rw [Body.course]
      apply (Environment.Framed.update hlength (.bind _ (List.mem_singleton_self name) v) ?_).trans
      · apply ih hargs huse hbody.2 hown.2 _ (hlater context _ hlength) hcalls.of_append.2
      · intro hcontext other hother
        rw [List.mem_singleton.mp hother]
        apply hbind name (hbody.1 hcontext)
  | define name v next ih => exact hbody.elim
  | register name accepted body next ih => exact hbody.elim
  | fork context next ih =>
      apply (Environment.Framed.fork hlength context).trans
      apply ih _ hargs huse (hbody _ (Nat.ne_of_gt hlength)) (hown.2 _) _ ?_ hcalls
      rw [CountedActivation.fork, Activation.fork, List.length_append]
      apply Nat.lt_add_right _ hlength
  | depth next ih => apply ih _ hargs huse (hbody _) (hown.2 _) _ hlength hcalls
  | limits next ih => apply ih _ hargs huse (hbody _) (hown.2 _) _ hlength hcalls

/-- An activity changes what its body changes of the context in which it runs. -/
theorem Activity.course_framed {names : List String} (a : Activity) (s : Counted)
    (h : a.CallsOnly Body.Quiet →
      Stencil.CallsOnly Body.Quiet
        (a.body.course answer limits a.args.get (a.opening s)).events →
      Environment.Framed names s.toEnvironment
        ((a.body.course answer limits a.args.get (a.opening s)).state.environment 0)) :
  (a.course answer limits s).FramedFrom names s
  := by
  intro hcalls
  rw [Activity.events_course] at hcalls
  apply h (hcalls a List.mem_cons_self) hcalls.of_cons.of_append.1

/-- Nodes change only what their trees assign outside of blocks, and calls what their arguments
do. -/
theorem Course.framed_inductive (limits : Limits) :
  Course.Inductive limits (fun n s c => c.FramedFrom n.assigned s)
    (fun callee s c => c.FramedFrom (Node.assignedByAll callee.args) s)
  where
  node answer n s hanswer hchildren := by
    apply (Activity.node n).course_framed s
    intro _ hcalls
    exact Body.course_framed hanswer (fun i => hchildren _ (List.get_mem _ i)) (fun _ => id)
      (fun _ => id) n.bindsOnly_body (n.plain_body.ownTree _) ((Activity.node n).opening s)
      Nat.one_pos hcalls
  refused callee s e _ := .refl _
  call answer callee body s hbody hanswer hnodes := by
    apply (Activity.call callee body).course_framed s
    intro hcall hcalls
    refine Body.course_framed hanswer (fun i => hnodes _) nofun ?_
      (hcall.body Body.Computes.quiet hbody) (Body.always_ownTree hnodes _)
      ((Activity.call callee body).opening s) Nat.one_pos hcalls
    intro operand hoperand name hname
    cases operand with
    | arg i => exact Node.mem_assignedByAll.mpr ⟨_, List.get_mem _ i, hname⟩
    | tree n =>
        have hassigned : name ∈ n.assigned := hname
        rw [hoperand n rfl] at hassigned
        cases hassigned

end Runs

/-- A block leaves the local variables of its environment alone, whatever its result is and
whatever answers calls. -/
theorem Node.locals_evaluate_block (answer : Answer) (children : List Node) (scope : Option Scope)
    (env : Environment) :
  ((Node.block children scope).evaluate answer env).2.locals = env.locals
  := by rw [Node.evaluate]

namespace Context

/-- The evaluation of a tree leaves the global variables, the functions, the limits and the number
of open calls as they are, and lets no local variable disappear; and only those names may stand
for something else locally that are assigned outside of all blocks of the tree.  So a block leaves
the local variables as they are.  The functions that are called are eager or quiet. -/
theorem evaluate_framed (c : Context) {n : Node}
    (hcalls : CallsOnly Body.Quiet (c.course n).events) :
  (c.evaluate n).2.store.globals = c.store.globals
    ∧ (c.evaluate n).2.store.functions = c.store.functions
    ∧ (c.evaluate n).2.limits = c.limits
    ∧ (c.evaluate n).2.depth = c.depth ∧ (c.course n).state.depth = c.counted.depth
    ∧ (∀ name, c.hasLocal name = true → (c.evaluate n).2.hasLocal name = true)
    ∧ (∀ name,
        (∀ expression enclosing, Node.Occurs (.assignment name expression) enclosing n →
          ∃ outer ∈ enclosing, outer.isBlock = true) →
        (c.evaluate n).2.locals.get? name = c.locals.get? name)
    ∧ ∀ answer children scope env,
      ((Node.block children scope).evaluate answer env).2.locals = env.locals
  := by
  have hframed : Environment.Framed n.assigned c.environment (c.evaluate n).2.environment := by
    rw [c.evaluate_eq_course n]
    apply (Course.framed_inductive c.limits).course n hcalls
  and_intros
  · apply hframed.globals
  · apply hframed.functions
  · rfl
  · rfl
  · apply (c.course_induction (Course.TalliedFrom.closed c.limits) n).restored
  · apply hframed.kept
  · intro name hblocks
    apply hframed.locals
    apply Node.not_mem_assigned_iff.mpr hblocks
  · apply Node.locals_evaluate_block

/-- A local variable is what it was after a run that was terminated in a block which had assigned
it. -/
theorem evaluate_framed_of_terminated_block :
  ∃ (c : Context) (n : Node) (v : Value),
    CallsOnly Body.Quiet (c.course n).events ∧ (c.evaluate n).1 = .ok (.terminating v none)
      ∧ c.hasLocal "x" = true ∧ (c.evaluate n).2.hasLocal "y" = true
      ∧ (c.evaluate n).2.locals.get? "x" = c.locals.get? "x"
  := by
  let c := (((root .standard).register "list" (.list .any)).2).bind "x" (.constant .empty)
  let value : Node := .literal (.integer 1)
  let outside : Node := .assignment "y" value
  let inside : Node := .assignment "x" value
  let stop : Node := .terminating value none
  let block : Node := .block [inside, stop] none
  let n : Node := .call "list" [outside, block] none
  let body : Activity :=
    .call (.function "list" [outside, block] none) ((Function.list .any).body 2 none)
  let one : Result := proceed (.integer 1)
  let stopped : Result := .ok (.terminating (.integer 1) none)
  have hevents : (c.course n).events
      = [.starts (.node n), .starts body, .starts (.node outside), .starts (.node value),
        .ends (.node value) one, .binds "y", .ends (.node outside) (proceed .empty),
        .starts (.node block), .starts (.node inside), .starts (.node value),
        .ends (.node value) one, .binds "x", .ends (.node inside) (proceed .empty),
        .starts (.node stop), .starts (.node value), .ends (.node value) one,
        .ends (.node stop) stopped, .ends (.node block) stopped, .ends body stopped,
        .ends (.node n) stopped] :=
    rfl
  have hcalls : CallsOnly Body.Quiet (c.course n).events := by
    intro a ha
    rw [hevents] at ha
    simp only [List.mem_cons, Event.starts.injEq, reduceCtorEq, or_false, false_or,
      List.not_mem_nil] at ha
    obtain rfl | rfl | rfl | rfl | rfl | rfl | rfl | rfl | rfl := ha
    · trivial
    · exact .inl ⟨_, _, rfl⟩
    all_goals trivial
  obtain ⟨-, -, -, -, -, -, hlocals, -⟩ := c.evaluate_framed hcalls
  refine ⟨c, n, .integer 1, hcalls, rfl, rfl, rfl, hlocals "x" ?_⟩
  apply Node.not_mem_assigned_iff.mp (by decide)

/-- It is not enough that the functions which are called bind, define and register nothing
themselves: one that looks into a block can evaluate an assignment there which the block would
have kept to itself.  Nor is it enough that the functions which the tree names do nothing of it:
one of them may call another that does. -/
theorem not_evaluate_framed :
  (¬ ∀ (c : Context) (n : Node), CallsOnly Body.Idle (c.course n).events →
      ∀ name,
        (∀ expression enclosing, Node.Occurs (.assignment name expression) enclosing n →
          ∃ outer ∈ enclosing, outer.isBlock = true) →
        (c.evaluate n).2.locals.get? name = c.locals.get? name)
    ∧ ¬ ∀ (c : Context) (n : Node), c.store.NamesOnly Body.Idle n →
      (c.evaluate n).2.store.globals = c.store.globals
  := by
  constructor
  · intro h
    let c := ((root .standard).register "unwrap" (.unwrap .any)).2
    let value : Node := .literal (.integer 7)
    let inside : Node := .assignment "y" value
    let block : Node := .block [inside] none
    let n : Node := .call "unwrap" [block] none
    let body : Activity := .call (.function "unwrap" [block] none)
      ((Function.unwrap .any).body 1 none)
    have hevents : (c.course n).events
        = [.starts (.node n), .starts body, .starts (.node inside), .starts (.node value),
          .ends (.node value) (proceed (.integer 7)), .binds "y",
          .ends (.node inside) (proceed .empty), .ends body (proceed .empty),
          .ends (.node n) (proceed .empty)] :=
      rfl
    have hcalls : CallsOnly Body.Idle (c.course n).events := by
      intro a ha
      rw [hevents] at ha
      simp only [List.mem_cons, Event.starts.injEq, reduceCtorEq, or_false,
        List.not_mem_nil] at ha
      obtain rfl | rfl | rfl | rfl := ha
      · trivial
      · exact .inr (Function.idle_unwrap .any 1 none)
      · trivial
      · trivial
    have hlocal := h c n hcalls "y" (Node.not_mem_assigned_iff.mp (by decide))
    have hbound : ((c.evaluate n).2.locals.get? "y").isSome = true := rfl
    rw [hlocal] at hbound
    cases hbound
  · intro h
    let c := (((root .standard).register "pass" (.forward .any "define")).2.register "define"
      (.define .any)).2
    let n : Node := .call "pass" [.literal (.string "g"), .literal (.integer 1)] none
    have hidle : c.store.NamesOnly Body.Idle n :=
      Store.namesOnly_call rfl (Function.idle_forward .any "define") [.string "g", .integer 1] none
    have hglobals : c.store.globals.contains "g" = true := by
      rw [← h c n hidle]
      rfl
    exact Bool.noConfusion hglobals

end Context

end Stencil
