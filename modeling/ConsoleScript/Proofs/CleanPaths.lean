import ConsoleScript.Settings.Path
import Mathlib.Data.List.Induction

/-! # Clean paths

Cleaning a path keeps the place that it names, and is done once and for all.

* **`Path.place`** — the place that a path names, by the names of the directories on the way there;
* **`Path.Settled`** — the components of a clean path: names behind a way up, and no way up in a
  path from the root. `Path.push` keeps components settled;
* **`Path.foldl_pieces_clean`** — whoever goes along a clean path meets these components, and
  otherwise only components that lead nowhere.

From this follow `Path.place_clean` and `Path.clean_clean`. -/

namespace ConsoleScript

namespace Path

/-! ## Pieces -/

/-- A text without separators is a single piece. -/
theorem pieces_of_not_mem {separator : UInt8} {text : Bytes} (plain : separator ∉ text) :
    pieces separator text = [text] := by
  induction text with
  | nil => rfl
  | cons byte rest ih =>
    obtain ⟨other, later⟩ := not_or.1 (List.mem_cons.not.1 plain)
    rw [pieces, if_neg (Ne.symm other), ih later]

/-- A piece ends at the first separator. -/
theorem pieces_append {separator : UInt8} {piece : Bytes} (plain : separator ∉ piece)
    (rest : Bytes) :
    pieces separator (piece ++ separator :: rest) = piece :: pieces separator rest := by
  induction piece with
  | nil => rw [List.nil_append, pieces, if_pos rfl]
  | cons byte more ih =>
    obtain ⟨other, later⟩ := not_or.1 (List.mem_cons.not.1 plain)
    rw [List.cons_append, pieces, if_neg (Ne.symm other), ih later]

/-- Pieces that are joined are taken apart again. -/
theorem pieces_joinWith {separator : UInt8} {texts : List Bytes} (some_text : texts ≠ [])
    (plain : ∀ text ∈ texts, separator ∉ text) :
    pieces separator (Bytes.joinWith [separator] texts) = texts := by
  induction texts with
  | nil => exact absurd rfl some_text
  | cons text rest ih =>
    obtain ⟨here, later⟩ := List.forall_mem_cons.1 plain
    cases rest with
    | nil => exact pieces_of_not_mem here
    | cons next more =>
      rw [Bytes.joinWith, List.append_assoc, List.singleton_append, pieces_append here,
        ih (List.cons_ne_nil _ _) later]

/-- No separator stands in a piece. -/
theorem not_mem_of_mem_pieces {separator : UInt8} {text : Bytes} :
    ∀ piece ∈ pieces separator text, separator ∉ piece := by
  induction text with
  | nil => exact List.forall_mem_singleton.2 List.not_mem_nil
  | cons byte rest ih =>
    rw [pieces]
    split
    · exact List.forall_mem_cons.2 ⟨List.not_mem_nil, ih⟩
    · rename_i other
      split
      · exact List.forall_mem_singleton.2 (by simpa using Ne.symm other)
      · rename_i piece more split
        rw [split] at ih
        obtain ⟨first, others⟩ := List.forall_mem_cons.1 ih
        refine List.forall_mem_cons.2 ⟨?_, others⟩
        exact fun member => (List.mem_cons.1 member).elim (fun same => other same.symm) first

/-! ## Components of clean paths -/

/-- Components of a clean path, the last of which comes first. -/
inductive Settled (rooted : Bool) : List Bytes → Prop where
  /-- A way up, which a path from the root does not have. -/
  | ascent (count : Nat) (relative : rooted = true → count = 0) :
      Settled rooted (List.replicate count above)
  /-- A name behind other components. -/
  | name {component : Bytes} {stack : List Bytes} (leads : ¬(component = [] ∨ component = here))
      (down : component ≠ above) (plain : slash ∉ component) (settled : Settled rooted stack) :
      Settled rooted (component :: stack)

theorem Settled.nil {rooted : Bool} : Settled rooted [] :=
  .ascent 0 fun _ => rfl

/-- A component that leads nowhere is not added. -/
theorem push_of_nowhere {component : Bytes} (nowhere : component = [] ∨ component = here)
    (rooted : Bool) (stack : List Bytes) : push rooted stack component = stack := by
  unfold push
  rw [if_pos nowhere]

/-- Adding a component keeps the others settled. -/
theorem Settled.push {rooted : Bool} {stack : List Bytes} (settled : Settled rooted stack)
    {component : Bytes} (plain : slash ∉ component) :
    Settled rooted (push rooted stack component) := by
  unfold Path.push
  split
  · exact settled
  · rename_i leads
    split
    · cases settled with
      | ascent count relative =>
        cases count with
        | zero =>
          cases rooted with
          | true => exact .ascent 0 fun _ => rfl
          | false => exact .ascent 1 fun rooted => nomatch rooted
        | succ count =>
          rw [List.replicate_succ]
          dsimp only
          rw [if_pos rfl]
          exact .ascent (count + 2) fun rooted => absurd (relative rooted) (Nat.succ_ne_zero count)
      | name _ down _ inner =>
        dsimp only
        rw [if_neg down]
        exact inner
    · rename_i down
      exact .name leads down plain settled

/-- Settled components are left as they are. -/
theorem Settled.foldl_push {rooted : Bool} {stack : List Bytes} (settled : Settled rooted stack) :
    stack.reverse.foldl (Path.push rooted) [] = stack := by
  induction settled with
  | ascent count relative =>
    cases rooted with
    | true => rw [relative rfl]; rfl
    | false =>
      rw [List.reverse_replicate]
      clear relative
      induction count with
      | zero => rfl
      | succ count ih =>
        rw [List.replicate_succ', List.foldl_append, ih, ← List.replicate_succ']
        cases count <;> rfl
  | name leads down plain _ ih =>
    rw [List.reverse_cons, List.foldl_append, ih, List.foldl_cons, List.foldl_nil]
    unfold Path.push
    rw [if_neg leads, if_neg down]

/-- The components of a clean path hold no slash and are not empty. -/
theorem Settled.solid {rooted : Bool} {stack : List Bytes} (settled : Settled rooted stack) :
    ∀ component ∈ stack, component ≠ [] ∧ slash ∉ component := by
  induction settled with
  | ascent count =>
    intro component member
    rw [List.eq_of_mem_replicate member]
    decide
  | name leads _ plain _ ih =>
    exact List.forall_mem_cons.2 ⟨⟨fun same => leads (.inl same), plain⟩, ih⟩

/-- The components that are left when a path is cleaned, the last of which comes first. -/
def settle (path : Bytes) : List Bytes :=
  (pieces slash path).foldl (push (isRooted path)) []

theorem settled_foldl {rooted : Bool} {stack : List Bytes} (settled : Settled rooted stack)
    {components : List Bytes} (plain : ∀ component ∈ components, slash ∉ component) :
    Settled rooted (components.foldl (push rooted) stack) := by
  induction components generalizing stack with
  | nil => exact settled
  | cons component rest ih =>
    obtain ⟨here, later⟩ := List.forall_mem_cons.1 plain
    exact ih (settled.push here) later

theorem settled_settle (path : Bytes) : Settled (isRooted path) (settle path) :=
  settled_foldl .nil not_mem_of_mem_pieces

theorem clean_eq (path : Bytes) : clean path =
    if isRooted path then slash :: Bytes.joinWith [slash] (settle path).reverse
    else if (settle path).reverse.isEmpty then here
    else Bytes.joinWith [slash] (settle path).reverse := rfl

/-- A text that is joined from components that are not empty starts with the first of them. -/
theorem head?_joinWith {components : List Bytes} (solid : [] ∉ components) :
    (Bytes.joinWith [slash] components).head? = components.head?.bind List.head? := by
  match components with
  | [] => rfl
  | [] :: rest => exact absurd List.mem_cons_self solid
  | [lead :: more] => rfl
  | (lead :: more) :: next :: rest => rfl

/-- A clean path starts at the root if the path does. -/
theorem isRooted_clean (path : Bytes) : isRooted (clean path) = isRooted path := by
  rw [clean_eq]
  cases rooted : isRooted path with
  | true => rfl
  | false =>
    rw [if_neg Bool.false_ne_true]
    split
    · rfl
    · have solid := (settled_settle path).solid
      have nowhere : [] ∉ (settle path).reverse := fun member =>
        (solid [] (List.mem_reverse.1 member)).1 rfl
      rw [isRooted, head?_joinWith nowhere, decide_eq_false_iff_not]
      intro first
      obtain ⟨component, front, starts⟩ := Option.bind_eq_some_iff.1 first
      have member := List.mem_reverse.1 (List.mem_of_mem_head? front)
      exact (solid component member).2 (List.mem_of_mem_head? starts)

/-- No path becomes empty. -/
theorem clean_ne_nil (path : Bytes) : clean path ≠ [] := by
  rw [clean_eq]
  split
  · exact List.cons_ne_nil _ _
  · split
    · exact List.cons_ne_nil _ _
    · rename_i some_component
      intro empty
      have nowhere : [] ∉ (settle path).reverse := fun member =>
        ((settled_settle path).solid [] (List.mem_reverse.1 member)).1 rfl
      have front := head?_joinWith nowhere
      rw [empty] at front
      cases components : (settle path).reverse with
      | nil => exact some_component (by rw [components]; rfl)
      | cons component rest =>
        rw [components] at front nowhere
        obtain ⟨lead, more, rfl⟩ :=
          List.exists_cons_of_ne_nil fun same => nowhere (same ▸ List.mem_cons_self)
        cases front

theorem join_ne_nil (directory name : Bytes) : join directory name ≠ [] :=
  clean_ne_nil _

/-- Along a clean path stand the components that are left, and others that lead nowhere. -/
theorem foldl_pieces_clean {α : Type} (step : α → Bytes → α)
    (stays : ∀ place component, component = [] ∨ component = here → step place component = place)
    (path : Bytes) (start : α) :
    (pieces slash (clean path)).foldl step start = (settle path).reverse.foldl step start := by
  have plain : ∀ component ∈ (settle path).reverse, slash ∉ component := fun component member =>
    ((settled_settle path).solid component (List.mem_reverse.1 member)).2
  -- Joined components are taken apart again; of none of them an empty piece is left.
  have joined (at_root : α) : (pieces slash (Bytes.joinWith [slash] (settle path).reverse)).foldl
      step at_root = (settle path).reverse.foldl step at_root := by
    cases components : (settle path).reverse with
    | nil => exact stays at_root [] (.inl rfl)
    | cons component rest =>
      rw [components] at plain
      rw [pieces_joinWith (List.cons_ne_nil _ _) plain]
  rw [clean_eq]
  split
  · rw [pieces, if_pos rfl, List.foldl_cons, stays start [] (.inl rfl), joined]
  · split
    · rename_i none
      rw [List.isEmpty_iff.1 none]
      exact stays start here (.inr rfl)
    · exact joined start

/-! ## What a clean path names -/

/-- Where a component leads from a place. A place is given by the names of the directories on the
way there, the last of which comes first. -/
def descend (place : List Bytes) (component : Bytes) : List Bytes :=
  if component = [] ∨ component = here then place
  else if component = above then place.tail
  else component :: place

/-- The place that a path names from `start`, as long as no component is a link. -/
def place (start : List Bytes) (path : Bytes) : List Bytes :=
  (pieces slash path).foldl descend (if isRooted path then [] else start)

/-- Adding a component leads where the component does. -/
theorem foldl_descend_push {rooted : Bool} {start stack : List Bytes}
    (root : rooted = true → start = []) (settled : Settled rooted stack) (component : Bytes) :
    (push rooted stack component).reverse.foldl descend start
      = descend (stack.reverse.foldl descend start) component := by
  have behind : (component :: stack).reverse.foldl descend start
      = descend (stack.reverse.foldl descend start) component := by
    rw [List.reverse_cons, List.foldl_append, List.foldl_cons, List.foldl_nil]
  unfold push
  split
  · rename_i nowhere
    rw [descend, if_pos nowhere]
  · split
    · rename_i up
      subst up
      cases settled with
      | ascent count relative =>
        cases count with
        | zero =>
          cases rooted with
          | true => rw [root rfl]; rfl
          | false => rfl
        | succ count =>
          rw [List.replicate_succ] at behind ⊢
          dsimp only
          rw [if_pos rfl]
          exact behind
      | @name top below leads down _ _ =>
        dsimp only
        rw [if_neg down, List.reverse_cons, List.foldl_append, List.foldl_cons, List.foldl_nil]
        have entered : descend (below.reverse.foldl descend start) top
            = top :: below.reverse.foldl descend start := by
          rw [descend, if_neg leads, if_neg down]
        rw [entered]
        rfl
    · exact behind

/-- The components that are left lead where all components do. -/
theorem foldl_descend_settle {rooted : Bool} {start : List Bytes}
    (root : rooted = true → start = []) {components : List Bytes}
    (plain : ∀ component ∈ components, slash ∉ component) :
    ((components.foldl (push rooted) []).reverse).foldl descend start
      = components.foldl descend start := by
  -- From the end, so that the last component is added to what is left of the others.
  induction components using List.reverseRecOn with
  | nil => rfl
  | append_singleton others component ih =>
    obtain ⟨before, last⟩ := List.forall_mem_append.1 plain
    rw [List.foldl_append, List.foldl_append, List.foldl_cons, List.foldl_nil,
      foldl_descend_push root (settled_foldl .nil before), ih before]
    rfl

/-- A clean path names the place that the path names, wherever one starts. -/
theorem place_clean (start : List Bytes) (path : Bytes) :
    place start (clean path) = place start path := by
  have stays (place : List Bytes) (component : Bytes)
      (nowhere : component = [] ∨ component = here) : descend place component = place :=
    if_pos nowhere
  rw [place, place, isRooted_clean, foldl_pieces_clean descend stays]
  refine foldl_descend_settle (fun rooted => ?_) not_mem_of_mem_pieces
  rw [if_pos rooted]

/-- A clean path stays as it is. -/
theorem clean_clean (path : Bytes) : clean (clean path) = clean path := by
  have same : settle (clean path) = settle path := by
    rw [settle, isRooted_clean,
      foldl_pieces_clean _ fun stack _ nowhere => push_of_nowhere nowhere _ stack]
    exact (settled_settle path).foldl_push
  rw [clean_eq (clean path), same, isRooted_clean, ← clean_eq]

example : clean (Bytes.utf8 "/h/./x//../y/") = Bytes.utf8 "/h/y" := by decide
example : clean (Bytes.utf8 "a/../../b") = Bytes.utf8 "../b" := by decide
example : clean (Bytes.utf8 "/..") = Bytes.utf8 "/" := by decide
example : clean [] = Bytes.utf8 "." := by decide

end Path

end ConsoleScript
