import Rtu.Lemmas.KernelLists
import Rtu.Links

/-!
# The lists of the kernel in memory

`Represents`: the pointers of a memory close every list to a circle over its items, in both directions, and the other fields say
what the pointers say. A call that is legal keeps it, and gives back what it means.
-/

namespace Rtu

open Rosters Links

variable {ι κ : Type} {m : ListMemory ι κ} {a : KernelLists ι κ} {i : ι} {l : κ} {l₁ l₂ : List ι}

/-- The node of an item, or the end marker where there is none. -/
def nodeOr (l : κ) : Option ι → Node ι κ
  | none => .xListEnd l
  | some i => .item i

/-- The memory holds the lists. -/
structure Represents (m : ListMemory ι κ) (a : KernelLists ι κ) : Prop where
  coherent : a.Coherent
  fore : ∀ l, Loop ListItem.pxNext m.nodes (.xListEnd l) ((a.items l).map .item)
  back : ∀ l, Loop ListItem.pxPrevious m.nodes (.xListEnd l) ((a.items l).reverse.map .item)
  count : ∀ l, (m.lists l).uxNumberOfItems = (a.items l).length
  index : ∀ l, (m.lists l).pxIndex = nodeOr l (a.roster l).finger
  marker : ∀ l, (m.nodes (.xListEnd l)).xItemValue = portMAX_DELAY
  value : ∀ i, (m.nodes (.item i)).xItemValue = a.value i
  container : ∀ i, (m.nodes (.item i)).pvContainer = a.container i

namespace KernelListsAux

theorem item_injective : Function.Injective (Node.item : ι → Node ι κ) := by
  rintro x y ⟨⟩
  rfl

theorem mem_nodes {n : Node ι κ} {is : List ι} :
    n ∈ Node.xListEnd l :: is.map .item ↔ n = .xListEnd l ∨ ∃ i ∈ is, n = .item i := by
  simp only [List.mem_cons, List.mem_map, eq_comm]

/-- The node behind which an item comes, in words of the items. -/
theorem getLastD_nodes (is : List ι) : (is.map (Node.item : ι → Node ι κ)).getLastD (.xListEnd l) = nodeOr l is.getLast? := by
  rw [List.getLastD_eq_getLast?, List.getLast?_map]
  cases is.getLast? <;> rfl

theorem headD_nodes (is : List ι) : (is.map (Node.item : ι → Node ι κ)).headD (.xListEnd l) = nodeOr l is.head? := by
  cases is <;> rfl

end KernelListsAux

open KernelListsAux

namespace Represents

/-- An item is followed by the next one, the last item by the end marker. -/
theorem pxNext (h : Represents m a) (hsplit : a.items l = l₁ ++ l₂) :
    (m.nodes (nodeOr l l₁.getLast?)).pxNext = nodeOr l l₂.head? := by
  have hloop := h.fore l
  rw [hsplit, List.map_append] at hloop
  have := hloop.next_getLastD
  rwa [getLastD_nodes, headD_nodes] at this

/-- An item has the one before it as its previous one, the first item the end marker. -/
theorem pxPrevious (h : Represents m a) (hsplit : a.items l = l₁ ++ l₂) :
    (m.nodes (nodeOr l l₂.head?)).pxPrevious = nodeOr l l₁.getLast? := by
  have hloop := h.back l
  rw [hsplit, List.reverse_append, List.map_append] at hloop
  have := hloop.next_getLastD
  rwa [getLastD_nodes, headD_nodes, List.getLast?_reverse, List.head?_reverse] at this

end Represents

/-! ## An item between two nodes -/

namespace KernelListsAux

/-- The node before a place in a list is the end marker or an item of the list. -/
theorem nodeOr_mem {o : Option ι} {is : List ι} (ho : ∀ j, o = some j → j ∈ is) :
    nodeOr l o ∈ Node.xListEnd l :: is.map .item := by
  cases o with
  | none => exact List.mem_cons_self
  | some j => exact mem_nodes.mpr (Or.inr ⟨j, ho j rfl, rfl⟩)

/-- The two nodes at a place in a list. -/
theorem neighbours_mem {is : List ι} (hsplit : is = l₁ ++ l₂) :
    nodeOr l l₁.getLast? ∈ Node.xListEnd l :: is.map .item ∧ nodeOr l l₂.head? ∈ Node.xListEnd l :: is.map .item := by
  subst hsplit
  constructor
  · refine nodeOr_mem ?_
    intro j hj
    exact List.mem_append_left _ (List.mem_of_getLast? hj)
  · refine nodeOr_mem ?_
    intro j hj
    exact List.mem_append_right _ (List.mem_of_mem_head? hj)

theorem nodup_nodes {is : List ι} (h : is.Nodup) : (Node.xListEnd l :: is.map .item).Nodup := by
  refine List.nodup_cons.mpr ⟨?_, h.map item_injective⟩
  intro hmem
  obtain ⟨j, -, hj⟩ := List.mem_map.mp hmem
  cases hj

section Readers

variable {f : ListItem ι κ → Node ι κ} {mem mem' : Node ι κ → ListItem ι κ}

/-- `Loop.insert` in words of the items, for the pointers of either direction. -/
theorem insert_nodes (h : Loop f mem (.xListEnd l) ((l₁ ++ l₂).map .item)) (hnodup : (l₁ ++ l₂).Nodup)
    (hit : f (mem' (nodeOr l l₁.getLast?)) = .item i) (hx : f (mem' (.item i)) = nodeOr l l₂.head?)
    (hrest : ∀ n ∈ Node.xListEnd l :: (l₁ ++ l₂).map .item, n ≠ nodeOr l l₁.getLast? → f (mem' n) = f (mem n)) :
    Loop f mem' (.xListEnd l) ((l₁ ++ i :: l₂).map .item) := by
  have hnodup' := nodup_nodes (l := l) hnodup
  rw [List.map_append] at h hnodup' hrest
  rw [List.map_append, List.map_cons]
  rw [← getLastD_nodes] at hit hrest
  rw [← headD_nodes] at hx
  exact h.insert hnodup' hit hx hrest

/-- `Loop.remove` in words of the items. -/
theorem remove_nodes (h : Loop f mem (.xListEnd l) ((l₁ ++ i :: l₂).map .item)) (hnodup : (l₁ ++ i :: l₂).Nodup)
    (hit : f (mem' (nodeOr l l₁.getLast?)) = f (mem (.item i)))
    (hrest : ∀ n ∈ Node.xListEnd l :: (l₁ ++ l₂).map .item, n ≠ nodeOr l l₁.getLast? → f (mem' n) = f (mem n)) :
    Loop f mem' (.xListEnd l) ((l₁ ++ l₂).map .item) := by
  have hnodup' := nodup_nodes (l := l) hnodup
  rw [List.map_append, List.map_cons] at h hnodup'
  rw [List.map_append] at hrest ⊢
  rw [← getLastD_nodes] at hit hrest
  exact h.remove hnodup' hit hrest

end Readers

/-- Lists have no node in common. -/
theorem nodes_ne (h : a.Coherent) {l' : κ} (hne : l' ≠ l) {n n' : Node ι κ}
    (hn : n ∈ Node.xListEnd l :: (a.items l).map .item) (hn' : n' ∈ Node.xListEnd l' :: (a.items l').map .item) : n' ≠ n := by
  rintro rfl
  rcases mem_nodes.mp hn with rfl | ⟨j, hj, rfl⟩
  · rcases mem_nodes.mp hn' with heq | ⟨k, -, heq⟩
    · exact hne (by cases heq; rfl)
    · cases heq
  · rcases mem_nodes.mp hn' with heq | ⟨k, hk, heq⟩
    · cases heq
    · cases heq
      exact hne (h.unique hk hj)

/-- An item that is in no list is no node of a list. -/
theorem ne_item (hi : ∀ l', i ∉ a.items l') {l' : κ} {n : Node ι κ} (hn : n ∈ Node.xListEnd l' :: (a.items l').map .item) :
    n ≠ .item i := by
  rintro rfl
  rcases mem_nodes.mp hn with heq | ⟨j, hj, heq⟩
  · cases heq
  · cases heq
    exact hi l' hj

end KernelListsAux

variable [DecidableEq ι] [DecidableEq κ]

/-- An item is put between two nodes of a list. -/
def ListMemory.splice (m : ListMemory ι κ) (l : κ) (before : Node ι κ) (i : ι) (behind : Node ι κ) : ListMemory ι κ where
  nodes n :=
    { m.nodes n with
      pxNext := if n = before then .item i else if n = .item i then behind else (m.nodes n).pxNext
      pxPrevious := if n = behind then .item i else if n = .item i then before else (m.nodes n).pxPrevious
      pvContainer := if n = .item i then some l else (m.nodes n).pvContainer }
  lists := Function.update m.lists l { (m.lists l) with uxNumberOfItems := (m.lists l).uxNumberOfItems + 1 }

/-- An item is taken from between two nodes of a list. -/
def ListMemory.unsplice (m : ListMemory ι κ) (l : κ) (before : Node ι κ) (i : ι) (behind : Node ι κ) : ListMemory ι κ where
  nodes n :=
    { m.nodes n with
      pxNext := if n = before then behind else (m.nodes n).pxNext
      pxPrevious := if n = behind then before else (m.nodes n).pxPrevious
      pvContainer := if n = .item i then none else (m.nodes n).pvContainer }
  lists := Function.update m.lists l
    { uxNumberOfItems := (m.lists l).uxNumberOfItems - 1
      pxIndex := if (m.lists l).pxIndex = .item i then before else (m.lists l).pxIndex }

namespace Represents

/-- An item of no list is put into one. -/
theorem splice (h : Represents m a) (hi : a.container i = none) (hsplit : a.items l = l₁ ++ l₂) {r : Roster ι}
    (hr : r.items = l₁ ++ i :: l₂) (hfinger : r.finger = (a.roster l).finger) :
    Represents (m.splice l (nodeOr l l₁.getLast?) i (nodeOr l l₂.head?)) (a.join l i r) := by
  have hnew := h.coherent.notMem hi
  have hnodup := h.coherent.nodup l
  obtain ⟨hbefore, hbehind⟩ := neighbours_mem (l := l) hsplit
  have hne₁ := ne_item hnew hbefore
  have hne₂ := ne_item hnew hbehind
  refine ⟨h.coherent.join hi hsplit hr, ?_, ?_, ?_, ?_, h.marker, h.value, ?_⟩
  · intro l'
    rw [KernelLists.items_join]
    split
    · rename_i hl
      subst hl
      have hloop := h.fore l'
      rw [hsplit] at hloop hnodup
      rw [hr]
      refine insert_nodes hloop hnodup ?_ ?_ ?_
      · simp [ListMemory.splice]
      · simp [ListMemory.splice, hne₁.symm]
      · intro n hn hnit
        rw [← hsplit] at hn
        simp [ListMemory.splice, hnit, ne_item hnew hn]
    · rename_i hl
      refine (h.fore l').congr ?_
      intro n hn
      simp [ListMemory.splice, nodes_ne h.coherent hl hbefore hn, ne_item hnew hn]
  · intro l'
    rw [KernelLists.items_join]
    split
    · rename_i hl
      subst hl
      have hloop := h.back l'
      rw [hsplit, List.reverse_append] at hloop
      rw [hr, List.reverse_append, List.reverse_cons, List.append_assoc, List.singleton_append]
      rw [hsplit, ← List.nodup_reverse, List.reverse_append] at hnodup
      refine insert_nodes hloop hnodup ?_ ?_ ?_
      · simp [ListMemory.splice]
      · simp [ListMemory.splice, hne₂.symm]
      · intro n hn hnit
        rw [← List.reverse_append, ← hsplit, mem_nodes] at hn
        simp only [List.mem_reverse] at hn
        rw [List.getLast?_reverse] at hnit
        simp [ListMemory.splice, hnit, ne_item hnew (mem_nodes.mpr hn)]
    · rename_i hl
      refine (h.back l').congr ?_
      intro n hn
      rw [mem_nodes] at hn
      simp only [List.mem_reverse] at hn
      simp [ListMemory.splice, nodes_ne h.coherent hl hbehind (mem_nodes.mpr hn), ne_item hnew (mem_nodes.mpr hn)]
  · intro l'
    rw [KernelLists.items_join]
    by_cases hl : l' = l
    · subst hl
      have hcount := h.count l'
      rw [hsplit, List.length_append] at hcount
      simp [ListMemory.splice, hcount, hr]
      omega
    · simp [ListMemory.splice, hl, h.count l']
  · intro l'
    by_cases hl : l' = l
    · subst hl
      simp [ListMemory.splice, KernelLists.join, h.index l', hfinger]
    · simp [ListMemory.splice, KernelLists.join, hl, h.index l']
  · intro j
    by_cases hj : j = i
    · subst hj
      simp [ListMemory.splice, KernelLists.join]
    · simp [ListMemory.splice, KernelLists.join, hj, h.container j]

/-- An item is taken out of the list that it is in. -/
theorem unsplice (h : Represents m a) (hsplit : a.items l = l₁ ++ i :: l₂) :
    Represents (m.unsplice l (nodeOr l l₁.getLast?) i (nodeOr l l₂.head?)) (a.remove i) := by
  have hi : a.container i = some l := by
    rw [h.coherent.member, hsplit]
    exact List.mem_append_right _ List.mem_cons_self
  have hsplit' : a.items l = (l₁ ++ [i]) ++ l₂ := by
    rw [hsplit]
    simp
  obtain ⟨hbefore, -⟩ := neighbours_mem (l := l) hsplit
  obtain ⟨-, hbehind⟩ := neighbours_mem (l := l) hsplit'
  have hnodup := h.coherent.nodup l
  have hitems : ∀ l', (a.remove i).items l' = if l' = l then l₁ ++ l₂ else a.items l' := by
    have hi₁ : i ∉ l₁ := by
      rw [hsplit] at hnodup
      exact fun hmem => (List.nodup_append.mp hnodup).2.2 i hmem i List.mem_cons_self rfl
    intro l'
    rw [KernelLists.items_remove h.coherent hi, hsplit, List.erase_append_right _ hi₁, List.erase_cons_head]
  have hnext : (m.nodes (.item i)).pxNext = nodeOr l l₂.head? := by
    have := h.pxNext hsplit'
    rwa [List.getLast?_concat] at this
  have hprevious : (m.nodes (.item i)).pxPrevious = nodeOr l l₁.getLast? := h.pxPrevious hsplit
  have hroster : (a.remove i).roster = Function.update a.roster l ((a.roster l).remove i) := by
    simp [KernelLists.remove, hi]
  refine ⟨h.coherent.remove i, ?_, ?_, ?_, ?_, h.marker, ?_, ?_⟩
  · intro l'
    rw [hitems]
    split
    · rename_i hl
      subst hl
      have hloop := h.fore l'
      rw [hsplit] at hloop hnodup
      refine remove_nodes hloop hnodup ?_ ?_
      · simp [ListMemory.unsplice, hnext]
      · intro n _ hnit
        simp [ListMemory.unsplice, hnit]
    · rename_i hl
      refine (h.fore l').congr ?_
      intro n hn
      simp [ListMemory.unsplice, nodes_ne h.coherent hl hbefore hn]
  · intro l'
    rw [hitems]
    split
    · rename_i hl
      subst hl
      have hloop := h.back l'
      rw [hsplit, List.reverse_append, List.reverse_cons, List.append_assoc, List.singleton_append] at hloop
      rw [List.reverse_append]
      rw [hsplit, ← List.nodup_reverse, List.reverse_append, List.reverse_cons, List.append_assoc,
        List.singleton_append] at hnodup
      refine remove_nodes hloop hnodup ?_ ?_
      · simp [ListMemory.unsplice, hprevious]
      · intro n _ hnit
        rw [List.getLast?_reverse] at hnit
        simp [ListMemory.unsplice, hnit]
    · rename_i hl
      refine (h.back l').congr ?_
      intro n hn
      rw [mem_nodes] at hn
      simp only [List.mem_reverse] at hn
      simp [ListMemory.unsplice, nodes_ne h.coherent hl hbehind (mem_nodes.mpr hn)]
  · intro l'
    rw [hitems]
    by_cases hl : l' = l
    · subst hl
      have hcount := h.count l'
      rw [hsplit, List.length_append, List.length_cons] at hcount
      simp [ListMemory.unsplice, hcount]
    · simp [ListMemory.unsplice, hl, h.count l']
  · intro l'
    rw [hroster]
    by_cases hl : l' = l
    · subst hl
      have hindex := h.index l'
      rw [Function.update_self]
      by_cases hfinger : (a.roster l').finger = some i
      · rw [hfinger] at hindex
        simp [ListMemory.unsplice, hindex, nodeOr, Roster.remove_finger (h.coherent.nodup l') hsplit hfinger]
      · have hne : nodeOr l' (a.roster l').finger ≠ .item i := by
          intro heq
          cases hf : (a.roster l').finger with
          | none =>
            rw [hf] at heq
            cases heq
          | some j =>
            rw [hf] at heq hfinger
            cases heq
            exact hfinger rfl
        simp [ListMemory.unsplice, hindex, Roster.remove_finger_of_ne hfinger, hne]
    · simp [ListMemory.unsplice, hl, h.index l']
  · intro j
    simpa [ListMemory.unsplice, KernelLists.remove, hi] using h.value j
  · intro j
    by_cases hj : j = i
    · subst hj
      simp [ListMemory.unsplice, KernelLists.remove, hi]
    · simp [ListMemory.unsplice, KernelLists.remove, hi, hj, h.container j]

end Represents

/-! ## The calls -/

namespace ListMemory

/-- `vListInsertEnd` puts the item in front of the index. -/
theorem vListInsertEnd_eq_splice {before behind : Node ι κ} (hbehind : (m.lists l).pxIndex = behind)
    (hbefore : (m.nodes behind).pxPrevious = before) (hne₁ : before ≠ .item i) (hne₂ : behind ≠ .item i) :
    m.vListInsertEnd l i = m.splice l before i behind := by
  simp only [vListInsertEnd, splice, set, setList, hbehind, Function.update_self, Function.update_of_ne hne₂, hbefore, mk.injEq,
    and_true]
  funext n
  simp only [Function.update_apply]
  split_ifs <;> simp_all

/-- `vListInsert` puts the item behind the node where its loop ends. -/
theorem vListInsert_eq_splice {before behind : Node ι κ}
    (hbefore : m.insertionPoint l (m.nodes (.item i)).xItemValue = some before)
    (hbehind : (m.nodes before).pxNext = behind) (hne₁ : before ≠ .item i) (hne₂ : behind ≠ .item i) :
    m.vListInsert l i = some (m.splice l before i behind) := by
  simp only [vListInsert, hbefore, Option.bind_eq_bind, Option.bind_some, pure, Option.some.injEq]
  simp only [splice, set, setList, hbehind, Function.update_self, mk.injEq, and_true]
  funext n
  simp only [Function.update_apply]
  split_ifs <;> simp_all

/-- `uxListRemove` takes the item out from between its two neighbours. -/
theorem uxListRemove_eq_unsplice {before behind : Node ι κ} (hcontainer : (m.nodes (.item i)).pvContainer = some l)
    (hbefore : (m.nodes (.item i)).pxPrevious = before) (hbehind : (m.nodes (.item i)).pxNext = behind)
    (hne₁ : before ≠ .item i) (hne₂ : behind ≠ .item i) :
    m.uxListRemove i = some (m.unsplice l before i behind, (m.lists l).uxNumberOfItems - 1) := by
  simp only [uxListRemove, hcontainer, hbefore, hbehind, Option.bind_eq_bind, Option.bind_some, pure, Option.some.injEq]
  have hprevious : ((m.set behind fun n => { n with pxPrevious := before }).nodes (.item i)).pxPrevious = before := by
    simp [set, Ne.symm hne₂, hbefore]
  have hnext : ((m.set behind fun n => { n with pxPrevious := before }).nodes (.item i)).pxNext = behind := by
    simp [set, Ne.symm hne₂, hbehind]
  have hlast : (((m.set behind fun n => { n with pxPrevious := before }).set before
      fun n => { n with pxNext := behind }).nodes (.item i)).pxPrevious = before := by
    simp [set, Ne.symm hne₁, Ne.symm hne₂, hbefore]
  rw [hprevious, hnext, hlast]
  have hnodes : (((m.set behind fun n => { n with pxPrevious := before }).set before fun n => { n with pxNext := behind }).set
      (.item i) fun n => { n with pvContainer := none }).nodes = (m.unsplice l before i behind).nodes := by
    simp only [set, unsplice]
    funext n
    simp only [Function.update_apply]
    split_ifs <;> simp_all
  by_cases hindex : (m.lists l).pxIndex = .item i
  · simp only [set, hindex, if_true, setList, unsplice, Function.update_self, Function.update_idem] at hnodes ⊢
    rw [hnodes]
  · simp only [set, hindex, if_false, setList, unsplice, Function.update_self] at hnodes ⊢
    rw [hnodes]

end ListMemory

omit [DecidableEq ι] [DecidableEq κ] in
/-- The loop of `vListInsert` ends behind the last item whose value is not above the new one. -/
theorem Represents.iterate (h : Represents m a) {v : Nat} (hv : v < portMAX_DELAY) (hsplit : a.items l = l₁ ++ l₂)
    {fuel : Nat} (hfuel : l₂.length < fuel) :
    m.iterate v fuel (nodeOr l l₁.getLast?) = some (nodeOr l (l₁ ++ l₂.takeWhile fun j => a.value j ≤ v).getLast?) := by
  induction l₂ generalizing l₁ fuel with
  | nil =>
    obtain ⟨n, rfl⟩ := Nat.exists_eq_add_of_lt hfuel
    have hnext : (m.nodes (nodeOr l l₁.getLast?)).pxNext = .xListEnd l := h.pxNext hsplit
    rw [ListMemory.iterate, hnext, h.marker, if_neg (by omega), List.takeWhile_nil, List.append_nil]
  | cons j l₂ ih =>
    obtain ⟨n, rfl⟩ := Nat.exists_eq_add_of_lt hfuel
    have hnext : (m.nodes (nodeOr l l₁.getLast?)).pxNext = .item j := h.pxNext hsplit
    rw [ListMemory.iterate, hnext, h.value]
    by_cases hj : a.value j ≤ v
    · rw [if_pos hj, List.takeWhile_cons_of_pos (by simpa using hj)]
      have hsplit' : a.items l = (l₁ ++ [j]) ++ l₂ := by simpa using hsplit
      have hfuel' : l₂.length < (j :: l₂).length + n := by
        rw [List.length_cons]
        omega
      have hrest := ih hsplit' hfuel'
      rw [List.getLast?_concat] at hrest
      simpa [nodeOr] using hrest
    · rw [if_neg hj, List.takeWhile_cons_of_neg (by simpa using hj), List.append_nil]

omit [DecidableEq ι] [DecidableEq κ] in
/-- Where `vListInsert` puts an item. -/
theorem Represents.insertionPoint (h : Represents m a) (i : ι) (l : κ) :
    m.insertionPoint l (m.nodes (.item i)).xItemValue =
      some (nodeOr l ((a.items l).takeWhile fun j => a.value j ≤ a.value i).getLast?) := by
  rw [h.value]
  unfold ListMemory.insertionPoint
  split
  · rename_i hmax
    -- no item has a value above this one
    have hall : (a.items l).takeWhile (fun j => a.value j ≤ a.value i) = a.items l := by
      refine List.takeWhile_eq_self_iff.mpr ?_
      intro j _
      rw [hmax]
      exact decide_eq_true (h.coherent.bounded j)
    have hprevious := h.pxPrevious (show a.items l = a.items l ++ [] from (List.append_nil _).symm)
    rw [hall]
    exact congrArg some hprevious
  · rename_i hmax
    have hlt : a.value i < portMAX_DELAY := Nat.lt_of_le_of_ne (h.coherent.bounded i) hmax
    have hfuel : (a.items l).length < (m.lists l).uxNumberOfItems + 1 := by
      rw [h.count]
      omega
    have hloop := h.iterate hlt (show a.items l = [] ++ a.items l from rfl) hfuel
    exact hloop

/-! ## The first lists -/

namespace KernelListsAux

/-- A list as `vListInitialise` leaves it. -/
structure Fresh (m : ListMemory ι κ) (l : κ) : Prop where
  pxNext : (m.nodes (.xListEnd l)).pxNext = .xListEnd l
  pxPrevious : (m.nodes (.xListEnd l)).pxPrevious = .xListEnd l
  xItemValue : (m.nodes (.xListEnd l)).xItemValue = portMAX_DELAY
  uxNumberOfItems : (m.lists l).uxNumberOfItems = 0
  pxIndex : (m.lists l).pxIndex = .xListEnd l

theorem fresh_vListInitialise (m : ListMemory ι κ) (l : κ) : Fresh (m.vListInitialise l) l := by
  constructor <;> simp [ListMemory.vListInitialise, ListMemory.set, ListMemory.setList]

theorem Fresh.vListInitialise (h : Fresh m l) (l' : κ) : Fresh (m.vListInitialise l') l := by
  by_cases hl : l = l'
  · subst hl
    exact fresh_vListInitialise m l
  · obtain ⟨h1, h2, h3, h4, h5⟩ := h
    constructor <;> simp [ListMemory.vListInitialise, ListMemory.set, ListMemory.setList, hl, h1, h2, h3, h4, h5]

omit [DecidableEq κ] in
theorem Fresh.vListInitialiseItem [DecidableEq κ] (h : Fresh m l) (i : ι) : Fresh (m.vListInitialiseItem i) l := by
  obtain ⟨h1, h2, h3, h4, h5⟩ := h
  constructor <;> simp [ListMemory.vListInitialiseItem, ListMemory.set, h1, h2, h3, h4, h5]

theorem fresh_lists {lists : List κ} (m : ListMemory ι κ) (hl : l ∈ lists ∨ Fresh m l) :
    Fresh (lists.foldl ListMemory.vListInitialise m) l := by
  induction lists generalizing m with
  | nil => simpa using hl
  | cons l' lists ih =>
    refine ih _ ?_
    rcases hl with hl | hl
    · rcases List.mem_cons.mp hl with rfl | hl
      · exact Or.inr (fresh_vListInitialise m l)
      · exact Or.inl hl
    · exact Or.inr (hl.vListInitialise l')

theorem fresh_items {items : List ι} {m : ListMemory ι κ} (h : Fresh m l) :
    Fresh (items.foldl ListMemory.vListInitialiseItem m) l := by
  induction items generalizing m with
  | nil => exact h
  | cons i items ih => exact ih (h.vListInitialiseItem i)

theorem value_lists (lists : List κ) (m : ListMemory ι κ) (i : ι) :
    ((lists.foldl ListMemory.vListInitialise m).nodes (.item i)).xItemValue = (m.nodes (.item i)).xItemValue := by
  induction lists generalizing m with
  | nil => rfl
  | cons l lists ih =>
    rw [List.foldl_cons, ih]
    simp [ListMemory.vListInitialise, ListMemory.set, ListMemory.setList]

theorem value_items (items : List ι) (m : ListMemory ι κ) (i : ι) :
    ((items.foldl ListMemory.vListInitialiseItem m).nodes (.item i)).xItemValue = (m.nodes (.item i)).xItemValue := by
  induction items generalizing m with
  | nil => rfl
  | cons j items ih =>
    rw [List.foldl_cons, ih]
    by_cases hi : i = j
    · subst hi
      simp [ListMemory.vListInitialiseItem, ListMemory.set]
    · simp [ListMemory.vListInitialiseItem, ListMemory.set, hi]

theorem container_items {items : List ι} (m : ListMemory ι κ) {i : ι}
    (hi : i ∈ items ∨ (m.nodes (.item i)).pvContainer = none) :
    ((items.foldl ListMemory.vListInitialiseItem m).nodes (.item i)).pvContainer = none := by
  induction items generalizing m with
  | nil => simpa using hi
  | cons j items ih =>
    refine ih _ ?_
    by_cases hj : i = j
    · subst hj
      exact Or.inr (by simp [ListMemory.vListInitialiseItem, ListMemory.set])
    · rcases hi with hi | hi
      · exact Or.inl ((List.mem_cons.mp hi).resolve_left hj)
      · exact Or.inr (by simpa [ListMemory.vListInitialiseItem, ListMemory.set, hj] using hi)

end KernelListsAux

/-- Lists and items that were made ready are empty lists and items of no list. -/
theorem represents_initialise {m : ListMemory ι κ} {lists : List κ} {items : List ι} (hlists : ∀ l, l ∈ lists)
    (hitems : ∀ i, i ∈ items) (hvalue : ∀ i, (m.nodes (.item i)).xItemValue ≤ portMAX_DELAY) :
    Represents (m.initialise lists items) (.initial fun i => (m.nodes (.item i)).xItemValue) := by
  have hfresh : ∀ l, Fresh (m.initialise lists items) l := fun l => fresh_items (fresh_lists m (Or.inl (hlists l)))
  refine ⟨KernelLists.coherent_initial hvalue, ?_, ?_, ?_, ?_, fun l => (hfresh l).xItemValue, ?_, ?_⟩
  · intro l
    exact loop_nil.mpr (hfresh l).pxNext
  · intro l
    exact loop_nil.mpr (hfresh l).pxPrevious
  · intro l
    exact (hfresh l).uxNumberOfItems
  · intro l
    exact (hfresh l).pxIndex
  · intro i
    rw [ListMemory.initialise, value_items, value_lists]
    rfl
  · intro i
    exact container_items _ (Or.inl (hitems i))

/-! ## One call and a list of calls -/

namespace Represents

theorem setValue (h : Represents m a) (i : ι) {xValue : Nat} (hvalue : xValue ≤ portMAX_DELAY) :
    Represents (m.listSET_LIST_ITEM_VALUE i xValue) (a.setValue i xValue) := by
  have hsame : ∀ n, n ≠ .item i → (m.listSET_LIST_ITEM_VALUE i xValue).nodes n = m.nodes n := by
    intro n hn
    exact Function.update_of_ne hn _ _
  -- no pointer changes, of the item that is set neither
  have hnext : ∀ n, ((m.listSET_LIST_ITEM_VALUE i xValue).nodes n).pxNext = (m.nodes n).pxNext := by
    intro n
    by_cases hn : n = .item i
    · subst hn
      simp [ListMemory.listSET_LIST_ITEM_VALUE, ListMemory.set]
    · rw [hsame n hn]
  have hprevious : ∀ n, ((m.listSET_LIST_ITEM_VALUE i xValue).nodes n).pxPrevious = (m.nodes n).pxPrevious := by
    intro n
    by_cases hn : n = .item i
    · subst hn
      simp [ListMemory.listSET_LIST_ITEM_VALUE, ListMemory.set]
    · rw [hsame n hn]
  refine ⟨h.coherent.setValue i hvalue, ?_, ?_, h.count, h.index, ?_, ?_, ?_⟩
  · exact fun l => (h.fore l).congr fun n _ => hnext n
  · exact fun l => (h.back l).congr fun n _ => hprevious n
  · intro l
    rw [hsame _ (by simp)]
    exact h.marker l
  · intro j
    by_cases hj : j = i
    · subst hj
      simp [ListMemory.listSET_LIST_ITEM_VALUE, ListMemory.set, KernelLists.setValue]
    · rw [hsame _ (by simpa using hj), h.value]
      simp [KernelLists.setValue, hj]
  · intro j
    show _ = a.container j
    by_cases hj : j = i
    · subst hj
      simpa [ListMemory.listSET_LIST_ITEM_VALUE, ListMemory.set] using h.container j
    · rw [hsame _ (by simpa using hj)]
      exact h.container j

theorem insertEnd (h : Represents m a) (hlegal : a.Legal (.insertEnd l i)) :
    Represents (m.vListInsertEnd l i) (a.insertEnd l i) := by
  have hnew := h.coherent.notMem hlegal
  obtain ⟨l₁, l₂, hsplit, hpush, hnone, hsome⟩ := Roster.push_items i (a.roster l)
  obtain ⟨hmem₁, hmem₂⟩ := neighbours_mem (l := l) hsplit
  have hbehind : (m.lists l).pxIndex = nodeOr l l₂.head? := by
    rw [h.index]
    cases hfinger : (a.roster l).finger with
    | none =>
      rw [hnone hfinger]
      rfl
    | some j => rw [hsome j hfinger]
  rw [ListMemory.vListInsertEnd_eq_splice hbehind (h.pxPrevious hsplit) (ne_item hnew hmem₁) (ne_item hnew hmem₂)]
  exact h.splice hlegal hsplit hpush (Roster.push_finger i _)

theorem insert (h : Represents m a) (hlegal : a.Legal (.insert l i)) :
    ∃ m', m.vListInsert l i = some m' ∧ Represents m' (a.insert l i) := by
  have hnew := h.coherent.notMem hlegal
  have hsplit : a.items l = (a.items l).takeWhile (fun j => a.value j ≤ a.value i) ++
      (a.items l).dropWhile fun j => a.value j ≤ a.value i := List.takeWhile_append_dropWhile.symm
  obtain ⟨hmem₁, hmem₂⟩ := neighbours_mem (l := l) hsplit
  refine ⟨_, ListMemory.vListInsert_eq_splice (h.insertionPoint i l) (h.pxNext hsplit) (ne_item hnew hmem₁)
    (ne_item hnew hmem₂), ?_⟩
  exact h.splice hlegal hsplit (Roster.place_items _ i _) (Roster.place_finger _ i _)

/-- The number that `uxListRemove` gives back is that of the items left. -/
theorem remove (h : Represents m a) (hi : a.container i = some l) :
    ∃ m', m.uxListRemove i = some (m', ((a.remove i).items l).length) ∧ Represents m' (a.remove i) := by
  obtain ⟨l₁, l₂, hsplit⟩ := List.append_of_mem ((h.coherent.member i l).mp hi)
  have hsplit' : a.items l = (l₁ ++ [i]) ++ l₂ := by
    rw [hsplit]
    simp
  have hnodup := h.coherent.nodup l
  rw [hsplit] at hnodup
  obtain ⟨hi₁, hi₂⟩ : i ∉ l₁ ∧ i ∉ l₂ := by
    simpa [not_or] using (List.nodup_cons.mp (List.nodup_middle.mp hnodup)).1
  have hne : ∀ o : Option ι, o ≠ some i → nodeOr l o ≠ .item i := by
    rintro (_ | j) ho ⟨⟩
    exact ho rfl
  have hne₁ : nodeOr l l₁.getLast? ≠ .item i := hne _ fun heq => hi₁ (List.mem_of_getLast? heq)
  have hne₂ : nodeOr l l₂.head? ≠ .item i := hne _ fun heq => hi₂ (List.mem_of_mem_head? heq)
  have hnext : (m.nodes (.item i)).pxNext = nodeOr l l₂.head? := by
    have := h.pxNext hsplit'
    rwa [List.getLast?_concat] at this
  have hcontainer : (m.nodes (.item i)).pvContainer = some l := by
    rw [h.container, hi]
  have hrepresents := h.unsplice hsplit
  refine ⟨_, ?_, hrepresents⟩
  rw [ListMemory.uxListRemove_eq_unsplice hcontainer (h.pxPrevious hsplit) hnext hne₁ hne₂, ← hrepresents.count]
  simp [ListMemory.unsplice]

omit [DecidableEq ι] in
/-- Only the index of a list is moved. -/
theorem moveIndex (h : Represents m a) (l : κ) :
    Represents (m.setList l fun head => { head with pxIndex := nodeOr l (a.roster l).next.finger }) (a.next l) := by
  refine ⟨h.coherent.next l, ?_, ?_, ?_, ?_, h.marker, h.value, h.container⟩
  · intro l'
    rw [KernelLists.items_next]
    exact h.fore l'
  · intro l'
    rw [KernelLists.items_next]
    exact h.back l'
  · intro l'
    rw [KernelLists.items_next, ← h.count]
    by_cases hl : l' = l
    · subst hl
      simp [ListMemory.setList]
    · simp [ListMemory.setList, hl]
  · intro l'
    by_cases hl : l' = l
    · subst hl
      simp [ListMemory.setList, KernelLists.next]
    · simpa [ListMemory.setList, KernelLists.next, hl] using h.index l'

/-- The index comes to the item whose turn it is. -/
theorem next (h : Represents m a) (hlegal : a.items l ≠ []) :
    ∃ j, (a.roster l).turn.head? = some j ∧ (m.listGET_OWNER_OF_NEXT_ENTRY l).2 = .item j ∧
      Represents (m.listGET_OWNER_OF_NEXT_ENTRY l).1 (a.next l) := by
  have hmoved := h.moveIndex l
  rw [Roster.next_finger] at hmoved
  obtain ⟨j, hj⟩ : ∃ j, (a.roster l).turn.head? = some j := by
    have hne : (a.roster l).turn ≠ [] := by
      rw [← List.length_pos_iff, Roster.length_turn, List.length_pos_iff]
      exact hlegal
    exact ⟨_, List.head?_eq_some_head hne⟩
  rw [hj] at hmoved
  have hstep : m.listGET_OWNER_OF_NEXT_ENTRY l =
      (m.setList l fun head => { head with pxIndex := nodeOr l (some j) }, .item j) := by
    have hnext : (m.nodes (m.lists l).pxIndex).pxNext = nodeOr l (a.roster l).ahead.head? := by
      rw [h.index]
      exact h.pxNext (show a.items l = (a.roster l).passed ++ (a.roster l).ahead from rfl)
    cases hahead : (a.roster l).ahead with
    | cons k rest =>
      obtain rfl : k = j := by simpa [Roster.turn, hahead] using hj
      rw [hahead] at hnext
      simp [ListMemory.listGET_OWNER_OF_NEXT_ENTRY, ListMemory.setList, hnext, nodeOr]
    | nil =>
      -- the end of the list: the index goes on to its first item
      rw [hahead] at hnext
      have hfirst : (m.nodes (.xListEnd l)).pxNext = nodeOr l (a.items l).head? := h.pxNext (show a.items l = [] ++ a.items l from rfl)
      have hhead : (a.items l).head? = some j := by
        simpa [Roster.turn, Roster.items, KernelLists.items, hahead] using hj
      rw [hhead] at hfirst
      simp [ListMemory.listGET_OWNER_OF_NEXT_ENTRY, ListMemory.setList, hnext, hfirst, nodeOr]
  rw [hstep]
  exact ⟨j, hj, rfl, hmoved⟩

/-- A legal call in memory does what it means, and gives back what it means. -/
theorem call (h : Represents m a) {c : ListCall ι κ} (hlegal : a.Legal c) :
    ∃ m', m.call c = some (m', a.reply c) ∧ Represents m' (a.call c) := by
  cases c with
  | setValue i xValue => exact ⟨_, rfl, h.setValue i hlegal⟩
  | insertEnd l i => exact ⟨_, rfl, h.insertEnd hlegal⟩
  | insert l i =>
    obtain ⟨m', hm', h'⟩ := h.insert hlegal
    exact ⟨m', by simp [ListMemory.call, hm', KernelLists.reply], h'⟩
  | remove i =>
    obtain ⟨l, hl⟩ := Option.ne_none_iff_exists'.mp hlegal
    obtain ⟨m', hm', h'⟩ := h.remove hl
    exact ⟨m', by simp [ListMemory.call, hm', KernelLists.reply, hl], h'⟩
  | next l =>
    obtain ⟨j, hj, howner, h'⟩ := h.next hlegal
    refine ⟨_, ?_, h'⟩
    simp [ListMemory.call, KernelLists.reply, hj, howner]

/-- A list of legal calls. -/
theorem calls (h : Represents m a) {cs : List (ListCall ι κ)} (hlegal : a.LegalCalls cs) :
    ∃ m', m.calls cs = some (m', a.replies cs) ∧ Represents m' (a.calls cs) := by
  induction cs generalizing m a with
  | nil => exact ⟨m, rfl, h⟩
  | cons c cs ih =>
    obtain ⟨hc, hrest⟩ := hlegal
    obtain ⟨m₁, hm₁, h₁⟩ := h.call hc
    obtain ⟨m₂, hm₂, h₂⟩ := ih h₁ hrest
    refine ⟨m₂, ?_, h₂⟩
    simp [ListMemory.calls, hm₁, hm₂, KernelLists.replies]

end Represents

/-! ## What the scheduler reads -/

/-- The first item, whether there is one, the number of items, the values and the lists of the items as the scheduler finds them. -/
structure ReadsAs (m : ListMemory ι κ) (a : KernelLists ι κ) : Prop where
  head : ∀ l, m.listGET_OWNER_OF_HEAD_ENTRY l = nodeOr l (a.items l).head?
  empty : ∀ l, m.listLIST_IS_EMPTY l = (a.items l).isEmpty
  count : ∀ l, (m.lists l).uxNumberOfItems = (a.items l).length
  value : ∀ i, (m.nodes (.item i)).xItemValue = a.value i
  container : ∀ i, (m.nodes (.item i)).pvContainer = a.container i

omit [DecidableEq ι] [DecidableEq κ] in
theorem Represents.reads (h : Represents m a) : ReadsAs m a := by
  refine ⟨fun l => ?_, fun l => ?_, h.count, h.value, h.container⟩
  · exact h.pxNext (List.nil_append (a.items l)).symm
  · rw [ListMemory.listLIST_IS_EMPTY, h.count, Bool.eq_iff_iff, decide_eq_true_iff, List.length_eq_zero_iff, List.isEmpty_iff]

end Rtu
