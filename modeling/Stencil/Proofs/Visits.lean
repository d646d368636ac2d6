import Mathlib.Data.List.FinRange
import Mathlib.Data.List.Flatten
import Mathlib.Data.List.Nodup
import Stencil.Function.Stock
import Stencil.Proofs.Course.Agreement
import Stencil.Proofs.Course.Collected

/-!
# The order of evaluation

The listing of a tree has each node before its subtrees, and these in the order of
`Node.children`.  The nodes whose evaluation starts in a run are some of the listing, in that order
and each at most once; and if no node of the tree may skip a subtree or return, then they are all of
it, as long as the evaluation gives a value (`Context.visits_listing`).

The events of a run do not tell equal subtrees apart.  So `Place.visits` follows a run a second
time: it says of each node whose evaluation starts where it stands in the tree.

Nodes and members have bodies that evaluate their arguments in order (`Body.InOrder`), and so have
eager functions.  What holds of the order in which a body goes through its arguments then passes to
nodes and calls (`Body.InOrder.follows`).
-/

namespace Stencil

/-! ### Places in a tree -/

/-- A node where it stands in a tree.  The path leads to it from the root, by the positions among
the subtrees; the trees that functions bring along are no part of the tree and have no path. -/
structure Place where
  path : Option (List Nat)
  node : Node

namespace Place

/-- The subtree at a position. -/
def child (p : Place) (i : Fin p.node.children.length) : Place :=
  ⟨p.path.map (· ++ [i.val]), p.node.children.get i⟩

theorem path_child {p : Place} {path : List Nat} (h : p.path = some path)
    (i : Fin p.node.children.length) :
  (p.child i).path = some (path ++ [i.val])
  := by rw [child, h, Option.map_some]

theorem size_child_lt (p : Place) (i : Fin p.node.children.length) :
  (p.child i).node.size < p.node.size
  := Node.size_lt_of_mem_children (List.get_mem _ i)

/-- The node and all nodes inside, each one before its subtrees. -/
def listing (p : Place) : List Place :=
  p :: (List.finRange p.node.children.length).flatMap fun i => (p.child i).listing
termination_by p.node.size
decreasing_by exact p.size_child_lt i

theorem induction_on_children {P : Place → Prop} (h : ∀ p : Place, (∀ i, P (p.child i)) → P p)
    (p : Place) :
  P p
  := by
  induction hsize : p.node.size using Nat.strongRecOn generalizing p with
  | _ size ih =>
      apply h
      intro i
      subst hsize
      apply ih (p.child i).node.size (p.size_child_lt i) (p.child i) rfl

theorem mem_listing {p q : Place} :
  q ∈ p.listing ↔ q = p ∨ ∃ i, q ∈ (p.child i).listing
  := by
  rw [listing, List.mem_cons, List.mem_flatMap]
  simp only [List.mem_finRange, true_and]

/-- What is listed occurs in the tree. -/
theorem exists_occurs_of_mem_listing {p q : Place} (h : q ∈ p.listing) :
  ∃ enclosing, Node.Occurs q.node enclosing p.node
  := by
  induction p using induction_on_children with
  | h p ih =>
      rcases mem_listing.mp h with rfl | ⟨i, hi⟩
      · exact ⟨[], .here⟩
      · obtain ⟨enclosing, hoccurs⟩ := ih i hi
        exact ⟨_, .inside (List.get_mem _ i) hoccurs⟩

/-- The paths of the nodes inside go on from the path of the node. -/
theorem exists_path_of_mem_listing {p q : Place} {path : List Nat} (hpath : p.path = some path)
    (h : q ∈ p.listing) :
  ∃ rest, q.path = some (path ++ rest)
  := by
  induction p using induction_on_children generalizing path with
  | h p ih =>
      rcases mem_listing.mp h with rfl | ⟨i, hi⟩
      · exact ⟨[], by rw [hpath, List.append_nil]⟩
      · obtain ⟨rest, hrest⟩ := ih i (path_child hpath i) hi
        exact ⟨i.val :: rest, by rw [hrest, List.append_assoc, List.singleton_append]⟩

/-- Every place of a tree is listed once. -/
theorem nodup_listing {p : Place} {path : List Nat} (hpath : p.path = some path) :
  p.listing.Nodup
  := by
  induction p using induction_on_children generalizing path with
  | h p ih =>
      have hchild := path_child hpath
      rw [listing, List.nodup_cons]
      constructor
      · intro hinside
        obtain ⟨i, -, hi⟩ := List.mem_flatMap.mp hinside
        obtain ⟨rest, hrest⟩ := exists_path_of_mem_listing (hchild i) hi
        rw [hpath, List.append_assoc] at hrest
        have hlength := congrArg List.length (Option.some.inj hrest)
        simp at hlength
      · rw [List.nodup_flatMap]
        refine ⟨fun i _ => ih i (hchild i), ?_⟩
        apply (List.nodup_finRange _).imp
        intro i j hne q hi hj
        -- The paths of the same place in two subtrees would part at their first position.
        obtain ⟨rest, hrest⟩ := exists_path_of_mem_listing (hchild i) hi
        obtain ⟨rest', hrest'⟩ := exists_path_of_mem_listing (hchild j) hj
        rw [hrest, Option.some.injEq, List.append_assoc, List.append_assoc,
          List.append_cancel_left_eq, List.singleton_append, List.singleton_append,
          List.cons.injEq] at hrest'
        apply hne (Fin.ext hrest'.1)

end Place

/-! ### Evaluated nodes -/

/-- The node whose evaluation starts. -/
def Event.startedNode? : Event → Option Node
  | starts (.node n) => some n
  | _ => none

/-- The nodes whose evaluation starts in events, in order. -/
def startedNodes (events : List Event) : List Node := events.filterMap Event.startedNode?

/-- The tree of an operand, where the arguments are given with their places. -/
def Operand.place {count : Nat} (args : Fin count → Place) : Operand count → Place
  | arg i => args i
  | tree n => ⟨none, n⟩

/-- The nodes whose evaluation starts when calls are answered. -/
abbrev AnswerVisits := Call Place → Counted → List Place

/-- What a body contributes to the nodes whose evaluation starts, where `operand` says it for
operands and `calls` for calls. -/
def visitor (calls : AnswerVisits) {count : Nat} (args : Fin count → Place)
    (operand : Operand count → Counted → List Place) : Collector Place count where
  operand := operand
  call callee s := calls (callee.map (Operand.place args)) s
  access _ := []

/-- The nodes of a tree whose evaluation starts when the tree is evaluated. -/
def Place.visits (answer : AnswerCourse) (limits : Limits) (calls : AnswerVisits) (p : Place)
    (s : Counted) : List Place :=
  p :: p.node.body.collected answer limits p.node.children.get
    (visitor calls p.child (Operand.onArgs fun i s => (p.child i).visits answer limits calls s))
    ((Activity.node p.node).opening s)
termination_by p.node.size
decreasing_by exact p.size_child_lt i

/-- What the body of a node contributes. -/
def Place.visitor (answer : AnswerCourse) (limits : Limits) (calls : AnswerVisits) (p : Place) :
    Collector Place p.node.children.length :=
  Stencil.visitor calls p.child
    (Operand.onArgs fun i s => (p.child i).visits answer limits calls s)

/-- The nodes inside of a node whose evaluation starts. -/
def Place.visitsInside (answer : AnswerCourse) (limits : Limits) (calls : AnswerVisits)
    (p : Place) (s : Counted) : List Place :=
  p.node.body.collected answer limits p.node.children.get (p.visitor answer limits calls)
    ((Activity.node p.node).opening s)

theorem Place.visits_eq (answer : AnswerCourse) (limits : Limits) (calls : AnswerVisits)
    (p : Place) (s : Counted) :
  p.visits answer limits calls s = p :: p.visitsInside answer limits calls s
  := by
  rw [visits]
  rfl

theorem Call.length_args_map {α β : Type} (f : α → β) (callee : Call α) :
  (callee.map f).args.length = callee.args.length
  := by rw [args_map, List.length_map]

/-- The arguments of a call with their places. -/
def Call.placed (callee : Call Place) : Fin (callee.map Place.node).args.length → Place :=
  fun i => callee.args.get (i.cast (callee.length_args_map Place.node))

theorem Call.node_placed (callee : Call Place) :
  (fun i => (callee.placed i).node) = (callee.map Place.node).args.get
  := by
  funext i
  simp [placed]

theorem Call.flatMap_placed (callee : Call Place) (f : Place → List Place) :
  (List.finRange (callee.map Place.node).args.length).flatMap (fun i => f (callee.placed i))
    = callee.args.flatMap f
  := by
  have hall : ∀ {count : Nat} (h : count = callee.args.length),
      (List.finRange count).map (fun i => callee.args.get (i.cast h)) = callee.args := by
    rintro _ rfl
    apply List.map_get_finRange
  rw [← hall (callee.length_args_map Place.node), List.flatMap_map]
  rfl

/-- What the body of a call contributes. -/
def Call.visitor (answer : AnswerCourse) (limits : Limits) (calls : AnswerVisits)
    (callee : Call Place) : Collector Place (callee.map Place.node).args.length :=
  Stencil.visitor calls callee.placed fun operand =>
    (operand.place callee.placed).visits answer limits calls

/-- The nodes whose evaluation starts when a call runs its body. -/
def Call.visitsInside (answer : AnswerCourse) (limits : Limits) (calls : AnswerVisits)
    (callee : Call Place) (body : Body (callee.map Place.node).args.length) (s : Counted) :
    List Place :=
  body.collected answer limits (callee.map Place.node).args.get
    (callee.visitor answer limits calls) s.opening

/-- The nodes whose evaluation starts when a call is answered. -/
def answerVisits (limits : Limits) : (budget : Nat) → AnswerVisits
  | 0, _, _ => []
  | budget + 1, callee, s =>
      match s.store.bodyOf (callee.map Place.node) with
      | .error _ => []
      | .ok body =>
          if limits.maxCallDepth ≤ s.depth then []
          else
            callee.visitsInside (answerCourse limits budget) limits (answerVisits limits budget)
              body s

/-- The nodes whose evaluation starts when a node is evaluated in a context. -/
def Context.visits (c : Context) (n : Node) : List Place :=
  Place.visits c.answerCourse c.limits
    (answerVisits c.limits (c.limits.maxCallDepth.toNat - c.depth)) ⟨some [], n⟩ c.counted

/-! ### Evaluated nodes are those of the run -/

section Starts

variable {answer : AnswerCourse} {calls : AnswerVisits}

/-- The evaluations that start in a course are those of the nodes at the places. -/
abbrev Course.Starts {σ : Type} (visited : List Place) (c : Course σ) : Prop :=
  c.Accounts Event.startedNode? Place.node visited

theorem Call.map_node_place {count : Nat} (args : Fin count → Place)
    (callee : Call (Operand count)) :
  (callee.map (Operand.place args)).map Place.node
    = callee.map (Operand.node fun i => (args i).node)
  := by
  have hoperands : Place.node ∘ Operand.place args = Operand.node fun i => (args i).node := by
    funext operand
    cases operand <;> rfl
  cases callee <;> simp only [map, List.map_map, hoperands]

/-- Visitors account for the evaluations that start, if they do so for arguments and calls. -/
theorem visitor_accounts {count : Nat} (args : Fin count → Place)
    {operand : Operand count → Counted → List Place}
    (hcalls : ∀ callee s, (answer (callee.map Place.node) s).Starts (calls callee s))
    (hargs : ∀ i s, ((args i).node.course answer s).Starts (operand (.arg i) s)) :
  (visitor calls args operand).Accounts Event.startedNode? Place.node answer
    fun i => (args i).node
  where
  arg := hargs
  call callee s := by
    rw [← callee.map_node_place]
    apply hcalls
  access a := by
    obtain ⟨e, deed⟩ := a
    cases deed <;> rfl

/-- The nodes that are visited in a tree are those whose evaluation starts. -/
theorem Place.course_starts
    (hcalls : ∀ callee s, (answer (callee.map Place.node) s).Starts (calls callee s))
    (limits : Limits) (p : Place) (s : Counted) :
  (p.node.course answer s).Starts (p.visits answer limits calls s)
  := by
  induction p using induction_on_children generalizing s with
  | h p ih =>
      have hvisitor : (p.visitor answer limits calls).Accounts Event.startedNode? Place.node answer
          p.node.children.get :=
        visitor_accounts p.child hcalls ih
      have hinside := Body.course_accounts limits hvisitor (p.node.plain_body.ownTree _)
        ((Activity.node p.node).opening s)
      rw [p.node.course_eq_activity limits, Course.Starts, Course.Accounts,
        Activity.filterMap_events_course fun _ _ => rfl, visits_eq]
      exact congrArg (p.node :: ·) hinside

/-- The nodes that are visited in a call are those whose evaluation starts. -/
theorem answerCourse_starts (limits : Limits) (budget : Nat) (callee : Call Place) (s : Counted) :
  (answerCourse limits budget (callee.map Place.node) s).Starts
    (answerVisits limits budget callee s)
  := by
  induction budget generalizing callee s with
  | zero =>
      rw [answerCourse, answerVisits]
      cases s.store.bodyOf (callee.map Place.node) with
      | error e => rfl
      | ok body => rfl
  | succ budget ih =>
      rw [answerCourse, answerVisits]
      cases s.store.bodyOf (callee.map Place.node) with
      | error e => rfl
      | ok body =>
          simp only
          split
          · rfl
          · have hnodes := Place.course_starts ih limits
            have hvisitor : (callee.visitor (answerCourse limits budget) limits
                (answerVisits limits budget)).Accounts Event.startedNode? Place.node
                (answerCourse limits budget) (callee.map Place.node).args.get := by
              rw [← callee.node_placed]
              exact visitor_accounts callee.placed ih fun i => hnodes _
            have hinside := Body.course_accounts limits hvisitor
              (Body.always_ownTree (fun n => hnodes ⟨none, n⟩) body) s.opening
            rw [Counted.calling_eq_activity, Course.Starts, Course.Accounts,
              Activity.filterMap_events_course fun _ _ => rfl]
            exact hinside

end Starts

/-! ### Bodies that go through their arguments in order -/

/-- The body evaluates the arguments in the list in this order, each at most once.  If it must go
through `all` of them, then it gives a value only after the last one, and does not return. -/
inductive Body.InOrder (all : Prop) {count : Nat} : List (Fin count) → Body count → Prop where
  | done {rest : List (Fin count)} {result : Result}
      (hrest : all → ∀ v, result = proceed v → rest = [])
      (hreturns : all → ∀ scope, Result.signal? result ≠ some (.returning scope)) :
      InOrder all rest (.done result)
  | value (context : Nat) (i : Fin count) {rest : List (Fin count)} {next : Value → Body count}
      (h : ∀ v, InOrder all rest (next v)) : InOrder all (i :: rest) (.value context (.arg i) next)
  | call (context : Nat) {callee : Call (Operand count)} {rest : List (Fin count)}
      (h : callee.args = rest.map .arg) : InOrder all rest (.call context callee .done)
  | read (context : Nat) (name : String) {rest : List (Fin count)}
      {next : Option Value → Body count} (h : ∀ v, InOrder all rest (next v)) :
      InOrder all rest (.read context name next)
  | isGlobal (name : String) {rest : List (Fin count)} {next : Bool → Body count}
      (h : ∀ b, InOrder all rest (next b)) : InOrder all rest (.isGlobal name next)
  | bind (context : Nat) (name : String) (v : Variable) {rest : List (Fin count)}
      {next : Body count} (h : InOrder all rest next) :
      InOrder all rest (.bind context name v next)
  | fork (context : Nat) {rest : List (Fin count)} {next : Nat → Body count}
      (h : ∀ inner, InOrder all rest (next inner)) : InOrder all rest (.fork context next)
  | withinLimit (operation source : String) (length : Nat) {rest : List (Fin count)}
      {next : Unit → Body count} (h : InOrder all rest (next ())) :
      InOrder all rest (Member.withinLimit operation source length next)

/-- The body goes through all its arguments in order. -/
def Body.Orderly {count : Nat} (body : Body count) : Prop := body.InOrder True (List.finRange count)

section InOrder

variable {count : Nat} {all : Prop} {rest : List (Fin count)}

namespace Body

theorem inOrder_error (e : Failure) :
  (done (.error e) : Body count).InOrder all rest
  := .done (fun _ => nofun) (fun _ => nofun)

/-- After the last argument, a body may end with whatever is no signal. -/
theorem inOrder_done {result : Result} (h : Result.signal? result = none) :
  (done result : Body count).InOrder all []
  := by
  refine .done (fun _ _ _ => rfl) ?_
  rw [h]
  nofun

/-- A body that evaluates its only argument first. -/
theorem inOrder_only {next : Value → Body 1} (h : ∀ v, (next v).InOrder all []) :
  (value 0 (.arg 0) next).InOrder all (List.finRange 1)
  := .value 0 0 h

theorem inOrder_values (context : Nat) (before : List Value) {next : List Value → Body count}
    (h : ∀ values, (next values).InOrder all []) :
  (values context (rest.map .arg) before next).InOrder all rest
  := by
  induction rest generalizing before with
  | nil => apply h
  | cons i rest ih =>
      rw [List.map_cons, values]
      apply InOrder.value
      intro v
      apply ih

theorem inOrder_concatenation (context : Nat) (text : String) :
  (concatenation context (rest.map .arg) text).InOrder all rest
  := by
  induction rest generalizing text with
  | nil => apply inOrder_done rfl
  | cons i rest ih =>
      rw [List.map_cons, concatenation]
      apply InOrder.value
      intro v
      apply ih

end Body

theorem Function.orderly_eager (arity : Arity) (compute : List Value → Attempt Value)
    (scope : Option Scope) :
  ((eager arity compute).body count scope).Orderly
  := by
  apply Body.inOrder_values
  intro values
  apply Body.inOrder_done (Result.signal?_ofValue _)

/-- Members go through all the arguments that they accept in order. -/
theorem Member.orderly_of_mem_ofKind {m : Member} {receiver : Kind} (h : m ∈ ofKind receiver)
    (haccepts : m.arity.accepts count = true) (c : Invocation) :
  (m.body c count).Orderly
  := by
  cases receiver with
  | string =>
      simp only [ofKind, ofString, List.mem_cons, List.not_mem_nil, or_false] at h
      obtain rfl | rfl | rfl | rfl | rfl | rfl := h
      · obtain rfl : count = 0 := Arity.accepts_exactly.mp haccepts
        apply Body.inOrder_done rfl
      · obtain rfl : count = 0 := Arity.accepts_exactly.mp haccepts
        apply Body.inOrder_done rfl
      · obtain rfl : count = 0 := Arity.accepts_exactly.mp haccepts
        apply Body.inOrder_done rfl
      · obtain rfl : count = 1 := Arity.accepts_exactly.mp haccepts
        apply Body.inOrder_only
        intro pattern
        apply Body.inOrder_done rfl
      · obtain rfl : count = 1 := Arity.accepts_exactly.mp haccepts
        apply Body.inOrder_only
        intro v
        cases v with
        | integer n =>
            simp only
            split
            · apply Body.inOrder_error
            · apply Body.InOrder.withinLimit
              apply Body.inOrder_done rfl
        | string _ | boolean _ | double _ => apply Body.inOrder_error
      · obtain rfl : count = 2 := Arity.accepts_exactly.mp haccepts
        apply Body.InOrder.value 0 0
        intro pattern
        apply Body.InOrder.value 0 1
        intro new
        apply Body.InOrder.withinLimit
        apply Body.inOrder_done rfl
  | boolean => cases h
  | double =>
      have hrounding : ∀ name round, (rounding name round).arity.accepts count = true →
          ((rounding name round).body c count).Orderly := by
        intro name round haccepts
        obtain rfl : count = 0 := Arity.accepts_exactly.mp haccepts
        simp only [rounding]
        split
        · apply Body.inOrder_done (Result.signal?_ofValue _)
        · apply Body.inOrder_done rfl
      simp only [ofKind, ofDouble, List.mem_cons, List.not_mem_nil, or_false] at h
      obtain rfl | rfl | rfl := h
      · apply hrounding _ _ haccepts
      · apply hrounding _ _ haccepts
      · apply hrounding _ _ haccepts
  | integer =>
      obtain rfl := List.mem_singleton.mp h
      obtain rfl : count = 0 := Arity.accepts_exactly.mp haccepts
      simp only [abs]
      split
      · apply Body.inOrder_done (Result.signal?_ofValue _)
      · apply Body.inOrder_done rfl

/-- Every body that runs in a call is orderly, if those of functions are. -/
theorem Activity.CallsOnly.orderly {s : Store} {callee : Call Node} {body : Body callee.args.length}
    (h : (Activity.call callee body).CallsOnly Body.Orderly) (hbody : s.bodyOf callee = .ok body) :
  body.Orderly
  := by
  cases callee with
  | function name args scope =>
      obtain ⟨arity, compute, rfl⟩ | horderly := h
      · apply Function.orderly_eager
      · apply horderly
  | member receiver name args scope =>
      obtain ⟨m, hfind, haccepts, rfl⟩ := Store.exists_of_bodyOf_member hbody
      apply Member.orderly_of_mem_ofKind (List.mem_of_find?_eq_some hfind) haccepts

/-- The node may leave out a subtree, or what comes after the node. -/
def Node.Skips : Node → Prop
  | .binary op _ _ => op.shortCircuits = true
  | .returning _ _ => True
  | _ => False

/-- Nodes go through their subtrees in order, and through all of them unless they skip some. -/
theorem Node.inOrder_body (n : Node) :
  n.body.InOrder (¬ n.Skips) (List.finRange n.children.length)
  := by
  cases n with
  | literal v => apply Body.inOrder_done rfl
  | reference name =>
      apply Body.InOrder.read
      intro v
      cases v <;> apply Body.inOrder_done rfl
  | assignment name expression =>
      apply Body.InOrder.isGlobal
      intro isGlobal
      split
      · apply Body.inOrder_error
      · refine Body.inOrder_only fun v => ?_
        apply Body.InOrder.bind
        apply Body.inOrder_done rfl
  | dot receiver member args scope =>
      change Body.InOrder _ (List.finRange (args.length + 1)) _
      rw [List.finRange_succ]
      apply Body.InOrder.value
      intro v
      apply Body.InOrder.call
      exact List.map_map.symm
  | call name args scope => exact Body.InOrder.call 0 rfl
  | binary op left right =>
      refine (Body.InOrder.value 0 0 fun a => ?_ : Body.InOrder _ (List.finRange 2) _)
      have hright : (Body.value 0 (.arg 1) fun b => .done (.ofValue (op.evaluate a b))).InOrder
          (¬ (binary op left right).Skips) [(1 : Fin 2)] := by
        apply Body.InOrder.value
        intro b
        apply Body.inOrder_done (Result.signal?_ofValue _)
      cases hdecided : op.decidedBy? with
      | none => apply hright
      | some deciding =>
          cases a.truth with
          | error e => apply Body.inOrder_error
          | ok decided =>
              simp only
              split
              · have hskips : (binary op left right).Skips := by
                  obtain ⟨rfl, -⟩ | ⟨rfl, -⟩ := Operator.decidedBy?_eq_some_iff.mp hdecided
                  · rfl
                  · rfl
                apply Body.InOrder.done <;> exact fun hall => absurd hskips hall
              · apply hright
  | negation operand =>
      refine Body.inOrder_only fun v => ?_
      apply Body.inOrder_done (Result.signal?_ofValue _)
  | root children => exact Body.inOrder_concatenation 0 ""
  | block children scope =>
      apply Body.InOrder.fork
      intro inner
      exact Body.inOrder_concatenation inner ""
  | returning expression scope =>
      refine Body.inOrder_only fun v => ?_
      apply Body.InOrder.done <;> exact fun hall => absurd trivial hall
  | terminating expression scope =>
      refine Body.inOrder_only fun v => ?_
      apply Body.InOrder.done
      · exact fun _ => nofun
      · exact fun _ _ hsignal => Signal.noConfusion (Option.some.inj hsignal)

end InOrder

/-! ### Runs follow the listing -/

/-- No node of the listing skips anything. -/
def Steady (listing : List Place) : Prop := ∀ p ∈ listing, ¬ p.node.Skips

/-- The visited nodes are listed, in this order.  If the course must go through `all` of the
listing, then it does not end with a return, and if it gives a value, then all are visited.  The
functions that are called must be orderly. -/
def Course.Follows {σ : Type} (all : Prop) (visited listing : List Place) (c : Course σ) : Prop :=
  CallsOnly Body.Orderly c.events →
    visited.Sublist listing
      ∧ (all → (∀ scope, Result.signal? c.result ≠ some (.returning scope))
        ∧ ∀ v, c.result = proceed v → visited = listing)

namespace Course.Follows

variable {σ τ : Type} {all all' : Prop} {visited visited' listing listing' : List Place}
  {c : Course σ} {c' : Course τ}

theorem mono (h : c.Follows all visited listing) (hall : all' → all) :
  c.Follows all' visited listing
  := by
  intro hcalls
  obtain ⟨horder, hwhole⟩ := h hcalls
  exact ⟨horder, fun h' => hwhole (hall h')⟩

/-- Nothing is visited, and there is an error. -/
theorem error (e : Failure) (s : σ) (listing : List Place) :
  (still (.error e) s).Follows all [] listing
  := fun _ => ⟨List.nil_sublist _, fun _ => ⟨fun _ => nofun, fun _ => nofun⟩⟩

/-- What goes on if there is a value, and hands on the result if not. -/
theorem after (h : c.Follows all visited listing)
    (hproceeds : ∀ v, c.result = proceed v → c'.Follows all visited' listing')
    (hblocks : Result.blocks c.result = true → c'.result = c.result ∧ visited' = []) :
  (c'.after c.trace).Follows all (visited ++ visited') (listing ++ listing')
  := by
  intro hcalls
  rw [events_after] at hcalls
  obtain ⟨hfirst, hrest⟩ := hcalls.of_append
  obtain ⟨horder, hwhole⟩ := h hfirst
  rcases Result.proceeds_or_blocks c.result with ⟨v, hv⟩ | hblocked
  · obtain ⟨horder', hwhole'⟩ := hproceeds v hv hrest
    refine ⟨horder.append horder', fun hall => ?_⟩
    obtain ⟨hreturns, hvisited⟩ := hwhole' hall
    refine ⟨hreturns, fun w hw => ?_⟩
    rw [(hwhole hall).2 v hv, hvisited w hw]
  · obtain ⟨hsame, rfl⟩ := hblocks hblocked
    refine ⟨horder.append (List.nil_sublist _), fun hall => ⟨?_, ?_⟩⟩
    · intro scope
      exact hsame ▸ (hwhole hall).1 scope
    · intro w hw
      have hvalue : c.result = proceed w := hsame ▸ hw
      rw [hvalue] at hblocked
      cases hblocked

/-- What goes on after events that are no activities. -/
theorem behind (h : c.Follows all visited listing) (before : List Moment) :
  (c.after before).Follows all visited listing
  := by
  intro hcalls
  rw [events_after] at hcalls
  apply h hcalls.of_append.2

end Course.Follows

/-- What an activity makes of a result that does not return. -/
theorem Activity.conclude_of_not_returning (a : Activity) {r : Result}
    (h : ∀ scope, Result.signal? r ≠ some (.returning scope)) :
  a.conclude r = r
  := by
  match r with
  | .ok (.proceed v) | .ok (.terminating v scope) | .error e =>
      unfold conclude
      split <;> rfl
  | .ok (.returning v scope) => exact absurd rfl (h scope)

section Follows

variable {answer : AnswerCourse} {limits : Limits} {calls : AnswerVisits}

/-- If nothing skips, then the call visits all that is listed in its arguments. -/
def AnswerVisits.Follow (answer : AnswerCourse) (calls : AnswerVisits) : Prop :=
  ∀ (callee : Call Place) s,
    (answer (callee.map Place.node) s).Follows (Steady (callee.args.flatMap Place.listing))
      (calls callee s) (callee.args.flatMap Place.listing)

/-- A body that goes through its arguments in order follows their listings. -/
theorem Body.InOrder.follows (hcalls : calls.Follow answer) {count : Nat}
    (args : Fin count → Place) {operand : Operand count → Counted → List Place}
    (hargs : ∀ i s, ((args i).node.course answer s).Follows (Steady (args i).listing)
      (operand (.arg i) s) (args i).listing)
    {own all : Prop} (hown : all → own) {rest : List (Fin count)} {body : Body count}
    (h : body.InOrder own rest) (hsteady : all → Steady (rest.flatMap fun i => (args i).listing))
    (a : CountedActivation) :
  (body.course answer limits (fun i => (args i).node) a).Follows all
    (body.collected answer limits (fun i => (args i).node) (visitor calls args operand) a)
    (rest.flatMap fun i => (args i).listing)
  := by
  induction h generalizing a with
  | @done rest result hrest hreturns =>
      intro _
      refine ⟨List.nil_sublist _, fun hall => ⟨hreturns (hown hall), fun v hv => ?_⟩⟩
      rw [hrest (hown hall) v hv]
      rfl
  | @value context i rest next h ih =>
      have hhere : all → Steady (args i).listing := fun hall p hp =>
        hsteady hall p (List.mem_append_left _ hp)
      have hlater : all → Steady (rest.flatMap fun i => (args i).listing) := fun hall p hp =>
        hsteady hall p (List.mem_append_right _ hp)
      have hargument := (hargs i (a.counted context)).mono hhere
      rw [Body.value, course_evaluate, collected_evaluate, resume_value, Operand.node,
        List.flatMap_cons]
      generalize (args i).node.course answer (a.counted context) = c at hargument
      obtain ⟨result, state, trace⟩ := c
      apply hargument.after
      · rintro v rfl
        apply ih v hlater
      · intro hblocks
        rcases result with e | (v | ⟨v, scope⟩ | ⟨v, scope⟩)
        · exact ⟨rfl, rfl⟩
        · cases hblocks
        · exact ⟨rfl, rfl⟩
        · exact ⟨rfl, rfl⟩
  | @call context callee rest hoperands =>
      have hlisting : (callee.map (Operand.place args)).args.flatMap Place.listing
          = rest.flatMap fun i => (args i).listing := by
        rw [Call.args_map, hoperands, List.map_map, List.flatMap_map]
        rfl
      have hcall := hcalls (callee.map (Operand.place args)) (a.counted context)
      rw [hlisting, callee.map_node_place] at hcall
      rw [course_call, collected_call, resume_done, ← List.append_nil (rest.flatMap _)]
      apply (hcall.mono hsteady).after
      · intro v hv _
        refine ⟨.refl [], fun _ => ⟨?_, fun _ _ => rfl⟩⟩
        rw [course, Course.still, hv]
        intro _ hproceeds
        cases hproceeds
      · exact fun _ => ⟨rfl, rfl⟩
  | read context name h ih => exact (ih _ hsteady _).behind _
  | isGlobal name h ih => exact ih _ hsteady _
  | bind context name v h ih => exact (ih hsteady _).behind _
  | fork context h ih => exact ih _ hsteady _
  | withinLimit operation source length h ih =>
      rw [course_withinLimit, collected_withinLimit]
      cases limits.refusal? operation source length with
      | some e => apply Course.Follows.error
      | none => apply ih hsteady

/-- The nodes that are visited in a tree follow its listing. -/
theorem Place.follows (hcalls : calls.Follow answer) (limits : Limits) (p : Place) (s : Counted) :
  (p.node.course answer s).Follows (Steady p.listing) (p.visits answer limits calls s) p.listing
  := by
  induction p using induction_on_children generalizing s with
  | h p ih =>
      intro hevents
      rw [p.node.course_eq_activity limits, Activity.events_course] at hevents
      have hown : Steady p.listing → ¬ p.node.Skips := by
        intro hsteady
        apply hsteady p
        rw [listing]
        apply List.mem_cons_self
      have hinside : Steady p.listing → Steady
          ((List.finRange p.node.children.length).flatMap fun i => (p.child i).listing) := by
        intro hsteady q hq
        apply hsteady q
        rw [listing]
        apply List.mem_cons_of_mem _ hq
      have hfollows : (p.node.body.course answer limits p.node.children.get
            ((Activity.node p.node).opening s)).Follows (Steady p.listing)
          (p.visitsInside answer limits calls s)
          ((List.finRange p.node.children.length).flatMap fun i => (p.child i).listing) :=
        p.node.inOrder_body.follows hcalls p.child ih hown hinside _
      obtain ⟨horder, hwhole⟩ := hfollows hevents.of_cons.of_append.1
      rw [visits_eq, listing] at *
      rw [p.node.course_eq_activity limits]
      refine ⟨horder.cons_cons p, fun hsteady => ?_⟩
      obtain ⟨hreturns, hvisited⟩ := hwhole hsteady
      have hresult : ((Activity.node p.node).course answer limits s).result
          = (p.node.body.course answer limits p.node.children.get
              ((Activity.node p.node).opening s)).result :=
        (Activity.node p.node).conclude_of_not_returning hreturns
      rw [hresult]
      exact ⟨hreturns, fun v hv => by rw [hvisited v hv]⟩

/-- The nodes that are visited in a call follow the listings of its arguments. -/
theorem answerVisits_follow (limits : Limits) (budget : Nat) :
  (answerVisits limits budget).Follow (answerCourse limits budget)
  := by
  induction budget with
  | zero =>
      intro callee s
      rw [answerCourse, answerVisits]
      cases s.store.bodyOf (callee.map Place.node) with
      | error e => apply Course.Follows.error
      | ok body => apply Course.Follows.error
  | succ budget ih =>
      intro callee s
      rw [answerCourse, answerVisits]
      cases hbody : s.store.bodyOf (callee.map Place.node) with
      | error e => apply Course.Follows.error
      | ok body =>
          simp only
          split
          · apply Course.Follows.error
          · rw [Counted.calling_eq_activity]
            intro hevents
            rw [Activity.events_course] at hevents
            have horderly : body.Orderly := (hevents _ List.mem_cons_self).orderly hbody
            have hsteady : Steady (callee.args.flatMap Place.listing) →
                Steady ((List.finRange (callee.map Place.node).args.length).flatMap
                  fun i => (callee.placed i).listing) := by
              rw [callee.flatMap_placed Place.listing]
              exact id
            have hfollows : (body.course (answerCourse limits budget) limits
                  (callee.map Place.node).args.get s.opening).Follows
                (Steady (callee.args.flatMap Place.listing))
                (callee.visitsInside (answerCourse limits budget) limits
                  (answerVisits limits budget) body s)
                ((List.finRange (callee.map Place.node).args.length).flatMap
                  fun i => (callee.placed i).listing) := by
              rw [Call.visitsInside, ← callee.node_placed]
              exact horderly.follows ih callee.placed (fun i => Place.follows ih limits _)
                (fun _ => trivial) hsteady _
            rw [callee.flatMap_placed Place.listing] at hfollows
            apply hfollows hevents.of_cons.of_append.1

end Follows

namespace Context

/-- The nodes whose evaluation starts in a run are some of the listing of the tree, in this order
and each at most once.  If the tree has no `AND`, no `OR` and no node that returns, and the
evaluation gives a value, then they are the whole listing.  The functions that are called must be
eager or go through their arguments in order. -/
theorem visits_listing (c : Context) {n : Node}
    (hcalls : CallsOnly Body.Orderly (c.course n).events) :
  startedNodes (c.course n).events = (c.visits n).map Place.node
    ∧ (c.visits n).Sublist (Place.listing ⟨some [], n⟩) ∧ (c.visits n).Nodup
    ∧ ((∀ m enclosing, Node.Occurs m enclosing n → ¬ m.Skips) →
      ∀ v, (c.evaluate n).1 = proceed v → c.visits n = Place.listing ⟨some [], n⟩)
  := by
  have hstarts : (c.course n).Starts (c.visits n) :=
    Place.course_starts (answerCourse_starts c.limits _) c.limits ⟨some [], n⟩ c.counted
  obtain ⟨horder, hwhole⟩ :=
    Place.follows (answerVisits_follow c.limits _) c.limits ⟨some [], n⟩ c.counted hcalls
  refine ⟨hstarts, horder, (Place.nodup_listing rfl).sublist horder, fun hskips v hv => ?_⟩
  have hsteady : Steady (Place.listing ⟨some [], n⟩) := by
    intro p hp
    obtain ⟨enclosing, hoccurs⟩ := Place.exists_occurs_of_mem_listing hp
    apply hskips p.node enclosing hoccurs
  apply (hwhole hsteady).2 v
  rw [← hv, c.evaluate_eq_course]
  rfl

/-- Two equal arguments of a function, each of which is evaluated. -/
theorem visits_listing_of_equal_arguments :
  ∃ (c : Context) (n : Node),
    CallsOnly Body.Orderly (c.course n).events
      ∧ n = .call "sum" [.literal (.integer 2), .literal (.integer 2)] none
      ∧ startedNodes (c.course n).events = [n, .literal (.integer 2), .literal (.integer 2)]
      ∧ (c.evaluate n).1 = proceed (.integer 4)
      ∧ c.visits n = Place.listing ⟨some [], n⟩ ∧ (c.visits n).Nodup
  := by
  let c := ((root .standard).register "sum" (.sum .any)).2
  let two : Node := .literal (.integer 2)
  let n : Node := .call "sum" [two, two] none
  let body : Activity := .call (.function "sum" [two, two] none) ((Function.sum .any).body 2 none)
  let four : Result := proceed (.integer 4)
  have hevents : (c.course n).events
      = [.starts (.node n), .starts body, .starts (.node two),
        .ends (.node two) (proceed (.integer 2)), .starts (.node two),
        .ends (.node two) (proceed (.integer 2)), .ends body four, .ends (.node n) four] :=
    rfl
  have hcalls : CallsOnly Body.Orderly (c.course n).events := by
    intro a ha
    rw [hevents] at ha
    simp only [List.mem_cons, Event.starts.injEq, reduceCtorEq, or_false, false_or,
      List.not_mem_nil] at ha
    obtain rfl | rfl | rfl | rfl := ha
    · trivial
    · exact .inl ⟨_, _, rfl⟩
    all_goals trivial
  have hskips : ∀ m enclosing, Node.Occurs m enclosing n → ¬ m.Skips := by
    rintro m _ (_ | ⟨hchild, hinside⟩)
    · exact id
    · obtain rfl : _ = two := by simpa [n, Node.children] using hchild
      cases hinside with
      | here => exact id
      | inside hnone _ => cases hnone
  obtain ⟨-, -, hnodup, hwhole⟩ := c.visits_listing hcalls
  exact ⟨c, n, hcalls, rfl, rfl, rfl, hwhole hskips _ rfl, hnodup⟩

end Context

end Stencil
