import Amatl.Lib.Text
import Amatl.Lib.Walk

/-! The text of a page as the native extractor reads it: a walk over the document with a stack, in
place of a recursion that hostile nesting could overflow. -/

namespace Amatl

open Text

/-- What a node of a document is; comments, doctypes and the like are all alike here. -/
inductive NodeValue where
  | element (name : String)
  | text (content : String)
  | other
  deriving DecidableEq, Repr

inductive DomNode where
  | mk (value : NodeValue) (children : List DomNode)

def DomNode.value : DomNode → NodeValue
  | mk value _ => value

def DomNode.children : DomNode → List DomNode
  | mk _ children => children

def maxExtractionDepth : Nat := 256

def skippedElements : List String :=
  ["script", "style", "noscript", "template", "nav", "footer", "header", "aside", "form", "iframe",
    "svg"]

def normalizedPiece (content : String) : List String :=
  let normalized := String.ofList (join [' '] (splitWhitespace content.toList))
  if normalized.isEmpty then [] else [normalized]

/-- Children in reverse, so that they are popped in document order. -/
def pushChildren (children : List DomNode) (depth : Nat) (stack : List (DomNode × Nat)) :
    List (DomNode × Nat) :=
  children.reverse.foldl (fun stack child => (child, depth) :: stack) stack

/-- One node is popped. -/
def collectPass (_ : Nat) (s : Walk.State (DomNode × Nat) String) :
    Loop.Turn (Walk.State (DomNode × Nat) String) :=
  match s with
  | ([], parts) => .done ([], parts)
  | ((node, depth) :: stack, parts) =>
    match node.value with
    | .text content => .again (stack, parts ++ normalizedPiece content)
    | .other => .again (stack, parts)
    | .element name =>
      if skippedElements.contains name then .again (stack, parts)
      else if maxExtractionDepth ≤ depth then .again (stack, parts)
      else .again (pushChildren node.children (depth + 1) stack, parts)

mutual

def DomNode.size : DomNode → Nat
  | mk _ children => 1 + DomNode.sizes children

def DomNode.sizes : List DomNode → Nat
  | [] => 0
  | node :: rest => node.size + DomNode.sizes rest

end

/-- The pieces behind those that are there. A tree has no more passes than nodes. -/
def collectReadableText (root : DomNode) (parts : List String) : Option (List String) :=
  (Loop.run collectPass (root.size + 1) 0 (pushChildren root.children 1 [], parts)).map Prod.snd

/-! The recursion that the walk stands for. -/

mutual

def readableNode (depth : Nat) : DomNode → List String
  | .mk value children =>
    match value with
    | .text content => normalizedPiece content
    | .other => []
    | .element name =>
      if skippedElements.contains name || maxExtractionDepth ≤ depth then []
      else readableNodes (depth + 1) children

def readableNodes (depth : Nat) : List DomNode → List String
  | [] => []
  | node :: rest => readableNode depth node ++ readableNodes depth rest

end

theorem readableNodes_eq (depth : Nat) (nodes : List DomNode) :
    readableNodes depth nodes = nodes.flatMap (readableNode depth) := by
  induction nodes with
  | nil => rfl
  | cons node rest ih => rw [readableNodes, ih, List.flatMap_cons]

theorem sizes_eq (nodes : List DomNode) :
    DomNode.sizes nodes = (nodes.map DomNode.size).sum := by
  induction nodes with
  | nil => rfl
  | cons node rest ih => rw [DomNode.sizes, ih, List.map_cons, List.sum_cons]

theorem pushChildren_eq (children : List DomNode) (depth : Nat) (stack : List (DomNode × Nat)) :
    pushChildren children depth stack = children.map (fun child => (child, depth)) ++ stack := by
  rw [pushChildren, List.foldl_reverse]
  induction children with
  | nil => rfl
  | cons child children ih => rw [List.foldr_cons, ih, List.map_cons, List.cons_append]

def entered (depth : Nat) : NodeValue → Bool
  | .element name => !(skippedElements.contains name || maxExtractionDepth ≤ depth)
  | _ => false

def ownPieces : NodeValue → List String
  | .text content => normalizedPiece content
  | _ => []

def childEntries (entry : DomNode × Nat) : List (DomNode × Nat) :=
  if entered entry.2 entry.1.value then entry.1.children.map (fun child => (child, entry.2 + 1))
  else []

theorem collectPass_eq (index : Nat) (s : Walk.State (DomNode × Nat) String) :
    collectPass index s = Walk.pass childEntries (fun entry => ownPieces entry.1.value) index s := by
  obtain ⟨stack, parts⟩ := s
  cases stack with
  | nil => rfl
  | cons entry stack =>
    obtain ⟨⟨value, children⟩, depth⟩ := entry
    cases value with
    | text content => rfl
    | other =>
      change Loop.Turn.again (stack, parts) = .again (stack, parts ++ [])
      rw [List.append_nil]
    | element name =>
      change (if skippedElements.contains name then Loop.Turn.again (stack, parts)
        else if maxExtractionDepth ≤ depth then .again (stack, parts)
        else .again (pushChildren children (depth + 1) stack, parts)) =
          .again ((if entered depth (.element name) then
            children.map (fun child => (child, depth + 1)) else []) ++ stack, parts ++ [])
      rw [List.append_nil, pushChildren_eq, entered]
      cases skippedElements.contains name with
      | true => rfl
      | false =>
        by_cases deep : maxExtractionDepth ≤ depth
        · simp [deep]
        · simp [deep]

theorem readable_recurses :
    Walk.Recurses childEntries (fun entry => ownPieces entry.1.value)
      (fun entry => readableNode entry.2 entry.1) := by
  intro ⟨⟨value, children⟩, depth⟩
  change readableNode depth (.mk value children) = ownPieces value ++
    (if entered depth value then children.map (fun child => (child, depth + 1)) else []).flatMap
      (fun entry => readableNode entry.2 entry.1)
  rw [readableNode.eq_def]
  cases value with
  | text content => simp [ownPieces, entered]
  | other => rfl
  | element name =>
    dsimp only
    have none : ownPieces (.element name) = [] := rfl
    rw [entered, none, List.nil_append, readableNodes_eq]
    by_cases stop : (skippedElements.contains name || decide (maxExtractionDepth ≤ depth)) = true
    · rw [if_pos stop, stop]
      rfl
    · rw [if_neg stop, Bool.eq_false_iff.mpr stop, Bool.not_false, if_pos rfl, List.flatMap_map]

theorem readable_shrinks :
    Walk.Shrinks childEntries (fun entry => entry.1.size) := by
  intro ⟨⟨value, children⟩, depth⟩
  have whole : (DomNode.mk value children).size = 1 + (children.map DomNode.size).sum := by
    rw [DomNode.size, sizes_eq]
  change ((if entered depth value then children.map (fun child => (child, depth + 1)) else []).map
    (fun entry => entry.1.size)).sum < (DomNode.mk value children).size
  rw [whole]
  by_cases down : entered depth value = true
  · rw [if_pos down, List.map_map]
    have same : (children.map ((fun entry : DomNode × Nat => entry.1.size) ∘
        (fun child => (child, depth + 1)))) = children.map DomNode.size := rfl
    rw [same]
    omega
  · rw [if_neg down]
    change 0 < 1 + (children.map DomNode.size).sum
    omega

/-- The walk ends and reads what the recursion reads, in its order. -/
theorem collectReadableText_eq (root : DomNode) (parts : List String) :
    collectReadableText root parts = some (parts ++ readableNodes 1 root.children) := by
  obtain ⟨value, children⟩ := root
  have passes : collectPass =
      Walk.pass childEntries (fun entry => ownPieces entry.1.value) := by
    funext index s
    exact collectPass_eq index s
  have start : pushChildren children 1 [] = children.map (fun child => (child, 1)) := by
    rw [pushChildren_eq, List.append_nil]
  have enough : ((children.map (fun child => (child, 1))).map
      (fun entry : DomNode × Nat => entry.1.size)).sum < (DomNode.mk value children).size + 1 := by
    rw [DomNode.size, sizes_eq, List.map_map]
    have same : (children.map ((fun entry : DomNode × Nat => entry.1.size) ∘
        (fun child => (child, 1)))) = children.map DomNode.size := rfl
    rw [same]
    omega
  rw [collectReadableText, DomNode.children, passes, start,
    Walk.run_eq readable_recurses readable_shrinks enough, Option.map_some, List.flatMap_map,
    readableNodes_eq]

/-! What the recursion skips, told of the texts of the document. -/

mutual

/-- The texts of a node in document order, each with the nodes it stands in. -/
def piecesOf (above : List NodeValue) : DomNode → List (List NodeValue × String)
  | .mk value children =>
    (match value with
      | .text content => [(above, content)]
      | _ => []) ++ piecesOfAll (above ++ [value]) children

def piecesOfAll (above : List NodeValue) : List DomNode → List (List NodeValue × String)
  | [] => []
  | node :: rest => piecesOf above node ++ piecesOfAll above rest

end

def readableElement : NodeValue → Bool
  | .element name => !skippedElements.contains name
  | _ => false

/-- Where a text is read: in no element that is skipped, and above the bound. -/
def readableAt (above : List NodeValue) : Bool :=
  above.length < maxExtractionDepth && above.all readableElement

theorem readableAt_concat (above : List NodeValue) (value : NodeValue) :
    readableAt (above ++ [value]) =
      (readableAt above && entered (above.length + 1) value) := by
  rw [Bool.eq_iff_iff, readableAt, readableAt, List.all_append, List.length_append]
  cases value with
  | text content => simp [readableElement, entered]
  | other => simp [readableElement, entered]
  | element name =>
    simp only [List.all_cons, List.all_nil, readableElement, entered, List.length_singleton,
      Bool.and_eq_true, Bool.and_true, Bool.not_eq_true', Bool.or_eq_false_iff,
      decide_eq_true_eq, decide_eq_false_iff_not]
    constructor
    · rintro ⟨short, all, name⟩
      exact ⟨⟨by omega, all⟩, name, by omega⟩
    · rintro ⟨⟨short, all⟩, name, deep⟩
      exact ⟨by omega, all, name⟩

def readOf (texts : List (List NodeValue × String)) : List String :=
  (texts.filter (fun text => readableAt text.1)).flatMap (fun text => normalizedPiece text.2)

theorem readOf_append (texts rest : List (List NodeValue × String)) :
    readOf (texts ++ rest) = readOf texts ++ readOf rest := by
  rw [readOf, List.filter_append, List.flatMap_append]
  rfl

mutual

theorem readOf_piecesOf (above : List NodeValue) :
    ∀ node, readOf (piecesOf above node) =
      if readableAt above then readableNode (above.length + 1) node else []
  | .mk value children => by
    have below := readOf_piecesOfAll (above ++ [value]) children
    rw [readableAt_concat, List.length_append, List.length_singleton] at below
    rw [piecesOf.eq_def, readOf_append, below, readableNode.eq_def]
    cases here : readableAt above with
    | false =>
      cases value with
      | text content => simp [readOf, here]
      | other => rfl
      | element name => rfl
    | true =>
      cases value with
      | text content => simp [readOf, here, entered]
      | other => rfl
      | element name =>
        simp only [entered, Bool.true_and, if_true]
        cases skippedElements.contains name || decide (maxExtractionDepth ≤ above.length + 1) with
        | true => rfl
        | false => rfl

theorem readOf_piecesOfAll (above : List NodeValue) :
    ∀ nodes, readOf (piecesOfAll above nodes) =
      if readableAt above then readableNodes (above.length + 1) nodes else []
  | [] => by
    rw [piecesOfAll, readableNodes, ite_self]
    rfl
  | node :: rest => by
    rw [piecesOfAll, readOf_append, readOf_piecesOf above node, readOf_piecesOfAll above rest,
      readableNodes]
    cases readableAt above with
    | true => rfl
    | false => rfl

end

/-- The recursion reads exactly the texts that stand in no skipped element and above the bound. -/
theorem readableNodes_texts (nodes : List DomNode) :
    readableNodes 1 nodes = readOf (piecesOfAll [] nodes) := by
  have reached : readableAt [] = true := by decide
  rw [readOf_piecesOfAll, reached]
  rfl

end Amatl
