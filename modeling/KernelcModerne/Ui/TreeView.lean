import KernelcModerne.Ui.Painting

open Transition

namespace UI

inductive TreeNode where
  | mk (text : List UInt8) (expanded : Bool) (children : List TreeNode)

namespace TreeNode

def text : TreeNode → List UInt8
  | mk text _ _ => text

def expanded : TreeNode → Bool
  | mk _ expanded _ => expanded

def children : TreeNode → List TreeNode
  | mk _ _ children => children

/-- The node that the indices lead to. -/
def descendant : TreeNode → List Nat → Option TreeNode
  | node, [] => some node
  | node, i :: path => (node.children[i]?).bind fun child => child.descendant path

/-- The nodes on the way to it, itself apart, are expanded. -/
def Open (node : TreeNode) (path : List Nat) : Prop :=
  ∀ first, first <+: path → first ≠ path →
    ∃ above, node.descendant first = some above ∧ above.expanded = true

variable {node child : TreeNode} {i : Nat} {path : List Nat}

theorem descendant_cons (hchild : node.children[i]? = some child) (path : List Nat) :
    node.descendant (i :: path) = child.descendant path := by
  rw [descendant, hchild, Option.bind_some]

theorem open_nil (node : TreeNode) : node.Open [] :=
  fun _ hfirst hne => absurd (List.prefix_nil.mp hfirst) hne

theorem open_cons_iff (hchild : node.children[i]? = some child) :
    node.Open (i :: path) ↔ node.expanded = true ∧ child.Open path := by
  constructor
  · intro h
    refine ⟨?_, fun first hfirst hne => ?_⟩
    · obtain ⟨above, habove, hexpanded⟩ := h [] List.nil_prefix (List.cons_ne_nil i path).symm
      obtain rfl : node = above := Option.some.inj habove
      exact hexpanded
    · rw [← descendant_cons hchild]
      apply h (i :: first) (List.cons_prefix_cons.mpr ⟨rfl, hfirst⟩)
      exact fun heq => hne (List.tail_eq_of_cons_eq heq)
  · rintro ⟨hexpanded, hopen⟩ first hfirst hne
    cases first with
    | nil => exact ⟨node, rfl, hexpanded⟩
    | cons j first =>
      obtain ⟨rfl, hrest⟩ := List.cons_prefix_cons.mp hfirst
      rw [descendant_cons hchild]
      exact hopen first hrest fun heq => hne (congrArg _ heq)

end TreeNode

structure TreeView where
  rootNodes : List TreeNode
  textColor : UInt32 := 0x000000
  backgroundColor : UInt32 := 0xFFFFFF
  selectionColor : UInt32 := 0xA0A0FF
  selectedIndex : Int32 := -1

namespace TreeView

open Canvas

variable (beyond : Nat → UInt8) (self : TreeView) (bounds : WidgetBounds)

def indentWidth : Int32 := 20

def nodeHeight : Int32 := 20

/-- What `renderNode` draws for a node without its children. -/
def drawNode (node : TreeNode) (level currentY : Int32) (canvas : Canvas) : Option Canvas := do
  let nodeX := bounds.x + level * indentWidth + 5
  let canvas ←
    if !node.children.isEmpty then
      let indicator := if node.expanded then ['-'.toUInt8] else ['+'.toUInt8]
      canvas.drawText beyond (nodeX - 15) (currentY + 6) indicator self.textColor
    else some canvas
  let canvas ←
    if self.selectedIndex = currentY then
      canvas.drawRect nodeX currentY (bounds.width - nodeX + bounds.x - 5) nodeHeight self.selectionColor
    else some canvas
  canvas.drawText beyond nodeX (currentY + 6) node.text self.textColor

mutual

/-- The calls share `currentY`, which comes with the canvas. -/
def renderNode (level : Int32) : TreeNode → Canvas × Int32 → Option (Canvas × Int32)
  | .mk text expanded children, (canvas, currentY) => do
    let canvas ← drawNode beyond self bounds (.mk text expanded children) level currentY canvas
    let drawn := (canvas, currentY + nodeHeight)
    if expanded then renderNodes (level + 1) children drawn else some drawn

def renderNodes (level : Int32) : List TreeNode → Canvas × Int32 → Option (Canvas × Int32)
  | [], drawn => some drawn
  | node :: nodes, drawn => do
    let drawn ← renderNode level node drawn
    renderNodes level nodes drawn

end

def render (canvas : Canvas) : Option Canvas := do
  let canvas ← canvas.drawRect bounds.x bounds.y bounds.width bounds.height self.backgroundColor
  let (canvas, _) ← renderNodes beyond self bounds 0 self.rootNodes (canvas, bounds.y + 5)
  return canvas

/-- A node with the indices that lead to it. -/
structure Row where
  path : List Nat
  node : TreeNode

def Row.under (i : Nat) (row : Row) : Row := ⟨i :: row.path, row.node⟩

mutual

/-- The rows of a node, which is the first of them. -/
def rowsOf : TreeNode → List Row
  | .mk text expanded children =>
    ⟨[], .mk text expanded children⟩ :: if expanded then rowsFrom 0 children else []

/-- The rows of the nodes that have the indices from `start` on. -/
def rowsFrom (start : Nat) : List TreeNode → List Row
  | [] => []
  | node :: nodes => (rowsOf node).map (Row.under start) ++ rowsFrom (start + 1) nodes

end

/-- The rows from top to bottom. -/
def rows : List Row := rowsFrom 0 self.rootNodes

/-- The path leads to the node, and the nodes on the way are expanded. -/
def Shows (path : List Nat) (node : TreeNode) : Prop :=
  ∃ i rest root, path = i :: rest ∧ self.rootNodes[i]? = some root ∧
    root.descendant rest = some node ∧ root.Open rest

theorem mem_rowsFrom {start : Nat} {nodes : List TreeNode} {row : Row} :
    row ∈ rowsFrom start nodes ↔ ∃ i node below, nodes[i]? = some node ∧ below ∈ rowsOf node ∧
      row = below.under (start + i) := by
  induction nodes generalizing start with
  | nil => simp [rowsFrom]
  | cons node nodes ih =>
    rw [rowsFrom, List.mem_append, List.mem_map, ih]
    constructor
    · rintro (⟨below, hbelow, rfl⟩ | ⟨i, node', below, hnode, hbelow, rfl⟩)
      · exact ⟨0, node, below, rfl, hbelow, rfl⟩
      · refine ⟨i + 1, node', below, hnode, hbelow, ?_⟩
        rw [Nat.add_assoc, Nat.add_comm 1 i]
    · rintro ⟨i, node', below, hnode, hbelow, rfl⟩
      cases i with
      | zero =>
        obtain rfl : node = node' := Option.some.inj hnode
        exact .inl ⟨below, hbelow, rfl⟩
      | succ i =>
        refine .inr ⟨i, node', below, hnode, hbelow, ?_⟩
        rw [Nat.add_assoc, Nat.add_comm 1 i]

/-- The rows of a node are the nodes below it that no node above them hides. -/
theorem mem_rowsOf {node below : TreeNode} {path : List Nat} :
    ⟨path, below⟩ ∈ rowsOf node ↔ node.descendant path = some below ∧ node.Open path := by
  induction path generalizing node with
  | nil =>
    cases node with
    | mk text expanded children =>
      have hroot :
          ⟨[], below⟩ ∈ rowsOf (.mk text expanded children) ↔ below = .mk text expanded children := by
        rw [rowsOf, List.mem_cons, Row.mk.injEq, and_iff_right rfl]
        refine or_iff_left fun hmem => ?_
        split at hmem
        · obtain ⟨i, node, row, _, _, heq⟩ := mem_rowsFrom.mp hmem
          cases heq
        · cases hmem
      rw [hroot, TreeNode.descendant, Option.some.injEq, and_iff_left (TreeNode.open_nil _), eq_comm]
  | cons i path ih =>
    cases node with
    | mk text expanded children =>
      have hbelow : ⟨i :: path, below⟩ ∈ rowsOf (.mk text expanded children) ↔
          expanded = true ∧ ∃ child, children[i]? = some child ∧ ⟨path, below⟩ ∈ rowsOf child := by
        cases expanded with
        | false => simp [rowsOf]
        | true =>
          rw [rowsOf, if_pos rfl, List.mem_cons, mem_rowsFrom, and_iff_right rfl]
          constructor
          · rintro (heq | ⟨j, child, row, hchild, hrow, heq⟩)
            · cases heq
            · rw [Nat.zero_add] at heq
              cases heq
              exact ⟨child, hchild, hrow⟩
          · rintro ⟨child, hchild, hrow⟩
            refine .inr ⟨i, child, ⟨path, below⟩, hchild, hrow, ?_⟩
            rw [Nat.zero_add, Row.under]
      rw [hbelow]
      constructor
      · rintro ⟨hexpanded, child, hchild, hrow⟩
        obtain ⟨hdescendant, hopen⟩ := ih.mp hrow
        exact ⟨(TreeNode.descendant_cons hchild path).trans hdescendant,
          (TreeNode.open_cons_iff hchild).mpr ⟨hexpanded, hopen⟩⟩
      · rintro ⟨hdescendant, hopen⟩
        rw [TreeNode.descendant, Option.bind_eq_some_iff] at hdescendant
        obtain ⟨child, hchild, hdescendant⟩ := hdescendant
        obtain ⟨hexpanded, hopen⟩ := (TreeNode.open_cons_iff hchild).mp hopen
        exact ⟨hexpanded, child, hchild, ih.mpr ⟨hdescendant, hopen⟩⟩

theorem mem_rows {path : List Nat} {node : TreeNode} : ⟨path, node⟩ ∈ self.rows ↔ self.Shows path node := by
  rw [rows, mem_rowsFrom, Shows]
  constructor
  · rintro ⟨i, root, below, hroot, hbelow, heq⟩
    rw [Nat.zero_add] at heq
    cases heq
    obtain ⟨hdescendant, hopen⟩ := mem_rowsOf.mp hbelow
    exact ⟨i, below.path, root, rfl, hroot, hdescendant, hopen⟩
  · rintro ⟨i, rest, root, rfl, hroot, hdescendant, hopen⟩
    refine ⟨i, root, ⟨rest, node⟩, hroot, mem_rowsOf.mpr ⟨hdescendant, hopen⟩, ?_⟩
    rw [Nat.zero_add, Row.under]

theorem pairwise_under {rows : List Row} (h : rows.Pairwise fun above below => above.path < below.path)
    (i : Nat) : (rows.map (Row.under i)).Pairwise fun above below => above.path < below.path := by
  rw [List.pairwise_map]
  exact h.imp fun hlt => List.cons_lt_cons_iff.mpr (.inr ⟨rfl, hlt⟩)

mutual

theorem pairwise_rowsOf :
    ∀ node : TreeNode, (rowsOf node).Pairwise fun above below => above.path < below.path
  | .mk text expanded children => by
    rw [rowsOf, List.pairwise_cons]
    split
    · refine ⟨fun row hrow => ?_, pairwise_rowsFrom 0 children⟩
      obtain ⟨i, node, below, _, _, rfl⟩ := mem_rowsFrom.mp hrow
      exact List.nil_lt_cons _ _
    · exact ⟨nofun, .nil⟩

/-- The rows are in the order of their paths. -/
theorem pairwise_rowsFrom (start : Nat) :
    ∀ nodes : List TreeNode, (rowsFrom start nodes).Pairwise fun above below => above.path < below.path
  | [] => .nil
  | node :: nodes => by
    rw [rowsFrom, List.pairwise_append]
    refine ⟨pairwise_under (pairwise_rowsOf node) start, pairwise_rowsFrom (start + 1) nodes, ?_⟩
    intro above habove below hbelow
    obtain ⟨row, _, rfl⟩ := List.mem_map.mp habove
    obtain ⟨i, node', row', _, _, rfl⟩ := mem_rowsFrom.mp hbelow
    exact List.cons_lt_cons_iff.mpr (.inl (by omega))

end

/-- The calls for a node without its children. -/
def nodeOps (node : TreeNode) (level currentY : Int32) : List Canvas.Op :=
  let nodeX := bounds.x + level * indentWidth + 5
  let indicator := if node.expanded then ['-'.toUInt8] else ['+'.toUInt8]
  (if !node.children.isEmpty then [.drawText (nodeX - 15) (currentY + 6) indicator self.textColor] else []) ++
    ((if self.selectedIndex = currentY then
        [.drawRect nodeX currentY (bounds.width - nodeX + bounds.x - 5) nodeHeight self.selectionColor]
      else []) ++
    [.drawText nodeX (currentY + 6) node.text self.textColor])

/-- Where row `k` begins. -/
def rowY (k : Nat) : Int32 := bounds.y + 5 + nodeHeight * Int32.ofNat k

/-- The calls for rows that follow each other from row `k` on. -/
def rowsOps (level : Int32) (k : Nat) (rows : List Row) : List Canvas.Op :=
  (rows.zipIdx k).flatMap fun (row, k) =>
    self.nodeOps bounds row.node (level + Int32.ofNat row.path.length) (rowY bounds k)

variable {self bounds}

theorem rowY_succ (k : Nat) : rowY bounds (k + 1) = rowY bounds k + nodeHeight := by
  rw [rowY, rowY, Int32.ofNat_add, Int32.mul_add, Int32.add_assoc _ _ nodeHeight]
  rfl

theorem rowsOps_append (level : Int32) (k : Nat) (first second : List Row) :
    self.rowsOps bounds level k (first ++ second) =
      self.rowsOps bounds level k first ++ self.rowsOps bounds level (k + first.length) second := by
  rw [rowsOps, List.zipIdx_append, List.flatMap_append]
  rfl

/-- A node is one level below the one that it is under. -/
theorem rowsOps_under (level : Int32) (k i : Nat) (rows : List Row) :
    self.rowsOps bounds level k (rows.map (Row.under i)) = self.rowsOps bounds (level + 1) k rows := by
  have hlevel (n : Nat) : level + Int32.ofNat (n + 1) = level + 1 + Int32.ofNat n := by
    rw [Nat.add_comm, Int32.ofNat_add, ← Int32.add_assoc]
    rfl
  simp only [rowsOps, List.zipIdx_map, List.flatMap_map, Prod.map_fst, Prod.map_snd, Row.under,
    List.length_cons, hlevel, id]

theorem drawNode_eq_run (node : TreeNode) (level currentY : Int32) (canvas : Canvas) :
    drawNode beyond self bounds node level currentY canvas =
      run (step beyond) canvas (self.nodeOps bounds node level currentY) := by
  by_cases hchildren : node.children.isEmpty = true
  · by_cases hselected : self.selectedIndex = currentY
    · simp [drawNode, nodeOps, step, hchildren, hselected]
    · simp [drawNode, nodeOps, step, hchildren, hselected]
  · by_cases hselected : self.selectedIndex = currentY
    · simp [drawNode, nodeOps, step, hchildren, hselected]
    · simp [drawNode, nodeOps, step, hchildren, hselected]

mutual

theorem renderNode_eq (level : Int32) (k : Nat) (canvas : Canvas) : ∀ node : TreeNode,
    renderNode beyond self bounds level node (canvas, rowY bounds k) =
      (run (step beyond) canvas (self.rowsOps bounds level k (rowsOf node))).map
        (·, rowY bounds (k + (rowsOf node).length))
  | .mk text expanded children => by
    have hsplit : rowsOf (.mk text expanded children) =
        [⟨[], .mk text expanded children⟩] ++ if expanded then rowsFrom 0 children else [] := by
      rw [rowsOf, List.singleton_append]
    have hfirst : self.rowsOps bounds level k [⟨[], .mk text expanded children⟩] =
        self.nodeOps bounds (.mk text expanded children) level (rowY bounds k) := by
      simp [rowsOps]
    rw [hsplit, rowsOps_append, hfirst, run_append, renderNode, drawNode_eq_run, List.length_append,
      List.length_singleton]
    cases run (step beyond) canvas (self.nodeOps bounds (.mk text expanded children) level (rowY bounds k)) with
    | none => rfl
    | some next =>
      rw [Option.bind_some, ← rowY_succ, ← Nat.add_assoc]
      cases expanded with
      | false => rfl
      | true => exact renderNodes_eq level (k + 1) 0 next children

theorem renderNodes_eq (level : Int32) (k start : Nat) (canvas : Canvas) : ∀ nodes : List TreeNode,
    renderNodes beyond self bounds (level + 1) nodes (canvas, rowY bounds k) =
      (run (step beyond) canvas (self.rowsOps bounds level k (rowsFrom start nodes))).map
        (·, rowY bounds (k + (rowsFrom start nodes).length))
  | [] => rfl
  | node :: nodes => by
    have hnode := renderNode_eq (level + 1) k canvas node
    rw [renderNodes, hnode, rowsFrom, rowsOps_append, rowsOps_under, run_append, List.length_append,
      List.length_map]
    cases run (step beyond) canvas (self.rowsOps bounds (level + 1) k (rowsOf node)) with
    | none => rfl
    | some next =>
      rw [Option.bind_some, ← Nat.add_assoc]
      exact renderNodes_eq level (k + (rowsOf node).length) (start + 1) next nodes

end

def backgroundOp (self : TreeView) (bounds : WidgetBounds) : Canvas.Op :=
  .drawRect bounds.x bounds.y bounds.width bounds.height self.backgroundColor

theorem render_eq_run (self : TreeView) (bounds : WidgetBounds) (canvas : Canvas) :
    render beyond self bounds canvas =
      run (step beyond) canvas (self.backgroundOp bounds :: self.rowsOps bounds (-1) 0 self.rows) := by
  have hfirst : rowY bounds 0 = bounds.y + 5 := Int32.add_zero _
  rw [render, run_cons, backgroundOp, step]
  cases canvas.drawRect bounds.x bounds.y bounds.width bounds.height self.backgroundColor with
  | none => rfl
  | some next =>
    have hnodes : renderNodes beyond self bounds (-1 + 1) self.rootNodes (next, rowY bounds 0) = _ :=
      renderNodes_eq beyond (-1) 0 0 next self.rootNodes
    rw [hfirst] at hnodes
    have hlevel : (-1 + 1 : Int32) = 0 := rfl
    rw [hlevel] at hnodes
    simp only [Option.bind_some, Option.bind_eq_bind, hnodes, rows]
    cases run (step beyond) next (self.rowsOps bounds (-1) 0 (rowsFrom 0 self.rootNodes)) <;> rfl

theorem toInt_rowY {k : Nat} (h : bounds.y.toInt + 5 + 20 * k < 2 ^ 31) :
    (rowY bounds k).toInt = bounds.y.toInt + 5 + 20 * k := by
  have hlow := bounds.y.le_toInt
  have hfive : (5 : Int32).toInt = 5 := rfl
  have hheight : nodeHeight.toInt = 20 := rfl
  rw [rowY, Int32.toInt_add, Int32.toInt_add, Int32.toInt_mul, Int.bmod_add_bmod, Int.add_bmod_bmod,
    Int32.toInt_ofNat', hfive, hheight, Int32.size, ← Int.add_bmod_bmod, Int.mul_bmod_bmod, Int.add_bmod_bmod]
  apply Int.bmod_eq_of_le
  · omega
  · omega

/-- The calls for a node stay in its row. -/
theorem nodeOps_area {node : TreeNode} {level currentY : Int32} {op : Canvas.Op} {px py : Int}
    (hbottom : currentY.toInt + 20 < 2 ^ 31) (hop : op ∈ self.nodeOps bounds node level currentY)
    (harea : op.area beyond px py) : currentY.toInt ≤ py ∧ py < currentY.toInt + 20 := by
  have hlow := currentY.le_toInt
  have hsix : (6 : Int32).toInt = 6 := rfl
  have hheight : nodeHeight.toInt = 20 := rfl
  have htext : (currentY + 6).toInt = currentY.toInt + 6 := SumFits.toInt_add ⟨by omega, by omega⟩
  have hrect : (currentY + nodeHeight).toInt = currentY.toInt + 20 := by
    rw [SumFits.toInt_add ⟨by omega, by omega⟩, hheight]
  rw [nodeOps, List.mem_append, List.mem_append, List.mem_singleton] at hop
  obtain hindicator | hselection | rfl := hop
  · split at hindicator
    · obtain rfl := List.mem_singleton.mp hindicator
      obtain ⟨hfirst, hlast⟩ := textArea_bounds harea (by omega)
      omega
    · cases hindicator
  · split at hselection
    · obtain rfl := List.mem_singleton.mp hselection
      obtain ⟨_, hfirst, hlast⟩ := harea
      omega
    · cases hselection
  · obtain ⟨hfirst, hlast⟩ := textArea_bounds harea (by omega)
    omega

/-- The calls for rows stay between the first and the last of these. -/
theorem rowsOps_area {level : Int32} {k : Nat} {rows : List Row} {op : Canvas.Op} {px py : Int}
    (hbottom : bounds.y.toInt + 5 + 20 * (k + rows.length) < 2 ^ 31)
    (hop : op ∈ self.rowsOps bounds level k rows) (harea : op.area beyond px py) :
    bounds.y.toInt + 5 + 20 * k ≤ py ∧ py < bounds.y.toInt + 5 + 20 * (k + rows.length) := by
  rw [rowsOps, List.mem_flatMap] at hop
  obtain ⟨⟨row, n⟩, hrow, hop⟩ := hop
  obtain ⟨hfirst, hlast, _⟩ := List.mem_zipIdx hrow
  have htop : (rowY bounds n).toInt = bounds.y.toInt + 5 + 20 * n := toInt_rowY (by omega)
  obtain ⟨habove, hbelow⟩ := nodeOps_area beyond (by omega) hop harea
  omega

/-- The rows that are shown are the nodes with no collapsed node above them, in
the order of their paths, and `render` draws each of them in its place. -/
theorem render_rows (self : TreeView) (bounds : WidgetBounds) (canvas : Canvas) :
    (self.rows.Pairwise fun above below => above.path < below.path) ∧
      (∀ path node, ⟨path, node⟩ ∈ self.rows ↔ self.Shows path node) ∧
      render beyond self bounds canvas =
        run (step beyond) canvas (self.backgroundOp bounds :: self.rowsOps bounds (-1) 0 self.rows) :=
  ⟨pairwise_rowsFrom 0 self.rootNodes, fun _ _ => self.mem_rows, render_eq_run beyond self bounds canvas⟩

/-- Where the rows end below `2 ^ 31`, each of them looks as if it were the only
one, and outside of them there is nothing but the background. -/
theorem render_apart (self : TreeView) (bounds : WidgetBounds) {canvas : Canvas} (hfits : canvas.Fits)
    (hbottom : bounds.y.toInt + 5 + 20 * self.rows.length < 2 ^ 31) :
    ∃ after background, render beyond self bounds canvas = some after ∧
      canvas.step beyond (self.backgroundOp bounds) = some background ∧
      (∀ k row, self.rows[k]? = some row → ∃ alone,
        run (step beyond) background (self.rowsOps bounds (-1) k [row]) = some alone ∧
        ∀ px py, bounds.y.toInt + 5 + 20 * k ≤ py → py < bounds.y.toInt + 5 + 20 * (k + 1) →
          after.pixel px py = alone.pixel px py) ∧
      ∀ px py, py < bounds.y.toInt + 5 ∨ bounds.y.toInt + 5 + 20 * self.rows.length ≤ py →
        after.pixel px py = background.pixel px py := by
  have hpointwise := pointwise_step beyond canvas.width canvas.height
  obtain ⟨background, hbackground, hsized⟩ := hpointwise.total canvas (self.backgroundOp bounds) hfits.sized
  obtain ⟨after, hafter, _⟩ := hsized.run beyond (self.rowsOps bounds (-1) 0 self.rows)
  refine ⟨after, background, ?_, hbackground, ?_, ?_⟩
  · rw [render_eq_run, run_cons, hbackground, Option.bind_some, hafter]
  · intro k row hrow
    obtain ⟨alone, halone, _⟩ := hsized.run beyond (self.rowsOps bounds (-1) k [row])
    refine ⟨alone, halone, fun px py habove hbelow => ?_⟩
    obtain ⟨hlt, hget⟩ := List.getElem?_eq_some_iff.mp hrow
    have hlength : (self.rows.take k).length = k := List.length_take_of_le (Nat.le_of_lt hlt)
    have hsplit : self.rows = self.rows.take k ++ ([row] ++ self.rows.drop (k + 1)) := by
      rw [← hget, List.singleton_append, ← List.drop_eq_getElem_cons hlt, List.take_append_drop]
    rw [hsplit, rowsOps_append, rowsOps_append, hlength, Nat.zero_add] at hafter
    apply hpointwise.run_part (i := (px, py)) hsized hafter halone
    · intro op hop harea
      obtain ⟨_, hlast⟩ := rowsOps_area beyond (by omega) hop harea
      omega
    · intro op hop harea
      rw [List.length_singleton] at hop
      obtain ⟨hfirst, _⟩ := rowsOps_area beyond (by simp only [List.length_drop]; omega) hop harea
      omega
  · intro px py hout
    apply hpointwise.run_frame (i := (px, py)) hsized hafter
    intro op hop harea
    obtain ⟨habove, hbelow⟩ := rowsOps_area beyond (by omega) hop harea
    omega

/-- An expanded node and the one under it. -/
def nested : TreeView where
  rootNodes := [.mk ['A'.toUInt8] true [.mk ['B'.toUInt8] false []]]

theorem render_apart_nested :
    ∃ after background alone, render (fun _ => 0) nested ⟨-5, -11, 40, 60⟩ small = some after ∧
      small.step (fun _ => 0) (nested.backgroundOp ⟨-5, -11, 40, 60⟩) = some background ∧
      run (step fun _ => 0) background (nested.rowsOps ⟨-5, -11, 40, 60⟩ (-1) 0 (nested.rows.take 1)) =
        some alone ∧
      ∀ px py, -6 ≤ py → py < 14 → after.pixel px py = alone.pixel px py := by
  obtain ⟨after, background, hafter, hbackground, hrows, _⟩ :=
    render_apart (fun _ => 0) nested ⟨-5, -11, 40, 60⟩ small_fits (by decide)
  obtain ⟨alone, halone, hsame⟩ := hrows 0 _ rfl
  exact ⟨after, background, alone, hafter, hbackground, halone, hsame⟩

end TreeView

end UI
