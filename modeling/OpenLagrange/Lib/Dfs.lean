/-
Depth-first search for a cycle, and breadth of a worklist search.

`visit` is the classical search with two sets of marks: a vertex is being visited
while its children are, and visited afterwards.  Coming back to a vertex that is
being visited is how a cycle is noticed.

The two directions of correctness rest on two different sets.  The visited marks
only ever hold vertices below which the child relation is well founded, so a search
that reports nothing has shown its start well founded.  The visiting marks are the
path from the start, so a report comes with a walk from a vertex back to itself.

`visit` recurses on a depth, and runs out of it only when the path is longer than
there are vertices: the path never repeats one, so one more than their number is
always enough.

`reach` is the worklist search: pop a vertex, skip it if it was reached, push its
children otherwise.  Every round either shrinks the worklist or uses up the children
of one vertex for good, which bounds the rounds in advance.
-/
import Mathlib

namespace Dfs

variable {ι : Type}

/-- The vertices on the current path, and the ones already finished. -/
structure Marks (ι : Type) where
  visiting : List ι
  visited : List ι

/-- Visit each vertex in turn until one reports a cycle. -/
def visitAll (visit : ι → Marks ι → Option (Bool × Marks ι)) :
    List ι → Marks ι → Option (Bool × Marks ι)
  | [], marks => some (false, marks)
  | id :: rest, marks =>
      match visit id marks with
      | none => none
      | some (true, marks') => some (true, marks')
      | some (false, marks') => visitAll visit rest marks'

/-- Visit a vertex; `none` when the depth runs out. -/
def visit [DecidableEq ι] (children : ι → Option (List ι)) : Nat → ι → Marks ι → Option (Bool × Marks ι)
  | 0, _, _ => none
  | depth + 1, id, marks =>
      if id ∈ marks.visited then some (false, marks)
      else if id ∈ marks.visiting then some (true, marks)
      else
        match children id with
        | none => some (false, marks)
        | some deps =>
            match visitAll (visit children depth) deps
                { marks with visiting := id :: marks.visiting } with
            | none => none
            | some (true, marks') => some (true, marks')
            | some (false, marks') =>
                some (false, ⟨marks'.visiting.erase id, id :: marks'.visited⟩)

/-- The vertex `d` is a child of `n`. -/
def Child (children : ι → Option (List ι)) (d n : ι) : Prop :=
  ∃ deps, children n = some deps ∧ d ∈ deps

variable {children : ι → Option (List ι)}

/-! ### What one visit leaves behind -/

/-- What a search knows on entry: finished vertices are well founded, the path is
made of vertices with children, has no repetition, and leads down to `top`. -/
structure Sound (children : ι → Option (List ι)) (top : List ι) (marks : Marks ι) : Prop where
  finished : ∀ v ∈ marks.visited, Acc (Child children) v
  known : ∀ v ∈ marks.visiting, (children v).isSome
  nodup : marks.visiting.Nodup
  path : ∀ v ∈ marks.visiting, ∀ t ∈ top, Relation.TransGen (Child children) t v

/-- What a search returns: either the marks are as before, with every start well
founded, or some vertex reaches itself. -/
def Verdict (children : ι → Option (List ι)) (starts : List ι) (marks : Marks ι) :
    Bool × Marks ι → Prop
  | (false, marks') =>
      marks'.visiting = marks.visiting ∧ (∀ v ∈ marks'.visited, Acc (Child children) v) ∧
        ∀ s ∈ starts, Acc (Child children) s
  | (true, _) => ∃ v, Relation.TransGen (Child children) v v

private theorem visitAll_verdict {f : ι → Marks ι → Option (Bool × Marks ι)} :
    ∀ (starts : List ι) (marks : Marks ι), Sound children starts marks →
      (∀ s ∈ starts, ∀ m : Marks ι, m.visiting = marks.visiting → Sound children [s] m →
        ∃ r, f s m = some r ∧ Verdict children [s] m r) →
      ∃ r, visitAll f starts marks = some r ∧ Verdict children starts marks r := by
  intro starts
  induction starts with
  | nil =>
      intro marks hs _
      exact ⟨(false, marks), rfl, rfl, hs.finished, by simp⟩
  | cons s rest ih =>
      intro marks hs hf
      have hs1 : Sound children [s] marks :=
        ⟨hs.finished, hs.known, hs.nodup, fun v hv t ht => hs.path v hv t (by simp_all)⟩
      obtain ⟨⟨found, marks'⟩, heq, hv⟩ := hf s (by simp) marks rfl hs1
      cases found with
      | true => exact ⟨(true, marks'), by simp only [visitAll, heq], hv⟩
      | false =>
          obtain ⟨hvis, hfin, hacc⟩ := hv
          have hs2 : Sound children rest marks' := by
            refine ⟨hfin, ?_, ?_, ?_⟩
            · rw [hvis]; exact hs.known
            · rw [hvis]; exact hs.nodup
            · rw [hvis]
              intro v hv' t ht
              exact hs.path v hv' t (by simp [ht])
          obtain ⟨⟨found2, marks2⟩, heq2, hv2⟩ :=
            ih marks' hs2 fun t ht m hm => hf t (by simp [ht]) m (hm.trans hvis)
          refine ⟨(found2, marks2), by simp only [visitAll, heq, heq2], ?_⟩
          cases found2 with
          | true => exact hv2
          | false =>
              refine ⟨hv2.1.trans hvis, hv2.2.1, ?_⟩
              intro t ht
              rcases List.mem_cons.mp ht with rfl | ht'
              · exact hacc t (by simp)
              · exact hv2.2.2 t ht'

/-- The path is never longer than the vertices that have children. -/
private theorem path_room {keys : List ι} (hkeys : ∀ v, (children v).isSome → v ∈ keys)
    {top : List ι} {marks : Marks ι} (hs : Sound children top marks) :
    marks.visiting.length ≤ keys.length :=
  (hs.nodup.subperm fun v hv => hkeys v (hs.known v hv)).length_le

variable [DecidableEq ι]

/-- **A visit with enough depth ends, and its verdict is right.** -/
theorem visit_verdict {keys : List ι} (hkeys : ∀ v, (children v).isSome → v ∈ keys) :
    ∀ (depth : Nat) (id : ι) (marks : Marks ι), Sound children [id] marks →
      keys.length + 1 ≤ marks.visiting.length + depth →
      ∃ r, visit children depth id marks = some r ∧ Verdict children [id] marks r := by
  intro depth
  induction depth with
  | zero =>
      intro id marks hs hroom
      have := path_room hkeys hs
      omega
  | succ depth ih =>
      intro id marks hs hroom
      unfold visit
      by_cases hvisited : id ∈ marks.visited
      · rw [if_pos hvisited]
        exact ⟨_, rfl, rfl, hs.finished, by simpa using hs.finished id hvisited⟩
      · rw [if_neg hvisited]
        by_cases hvisiting : id ∈ marks.visiting
        · rw [if_pos hvisiting]
          exact ⟨_, rfl, id, hs.path id hvisiting id (by simp)⟩
        · rw [if_neg hvisiting]
          cases hch : children id with
          | none =>
              refine ⟨_, rfl, rfl, hs.finished, ?_⟩
              intro s hs'
              have : s = id := by simpa using hs'
              subst this
              refine ⟨s, ?_⟩
              rintro d ⟨deps, hdeps, -⟩
              rw [hch] at hdeps
              cases hdeps
          | some deps =>
              -- The children are visited with `id` on the path.
              have hchild : ∀ d ∈ deps, Child children d id := fun d hd => ⟨deps, hch, hd⟩
              have hs' : Sound children deps { marks with visiting := id :: marks.visiting } := by
                refine ⟨hs.finished, ?_, List.nodup_cons.mpr ⟨hvisiting, hs.nodup⟩, ?_⟩
                · intro v hv
                  rcases List.mem_cons.mp hv with rfl | hv'
                  · simp [hch]
                  · exact hs.known v hv'
                · intro v hv t ht
                  rcases List.mem_cons.mp hv with rfl | hv'
                  · exact .single (hchild t ht)
                  · exact (hs.path v hv' id (by simp)).head (hchild t ht)
              obtain ⟨⟨found, marks'⟩, heq, hv⟩ := visitAll_verdict deps _ hs'
                (f := visit children depth) fun d _ m hm hsm => by
                  -- Every child is entered with the same path, so one less depth is enough.
                  refine ih d m hsm ?_
                  rw [hm, List.length_cons]
                  omega
              simp only [heq]
              cases found with
              | true => exact ⟨_, rfl, hv⟩
              | false =>
                  obtain ⟨hvis, hfin, hacc⟩ := hv
                  have hid : Acc (Child children) id := by
                    refine ⟨id, ?_⟩
                    rintro d ⟨deps', hdeps', hd⟩
                    rw [hch] at hdeps'
                    cases hdeps'
                    exact hacc d hd
                  refine ⟨_, rfl, by simp [hvis], ?_, by simpa using hid⟩
                  intro v hv
                  rcases List.mem_cons.mp hv with rfl | hv'
                  · exact hid
                  · exact hfin v hv'

/-- **A search over all of `starts` ends; silence means every start is well founded,
and a report means some vertex reaches itself.** -/
theorem visitAll_spec {keys : List ι} (hkeys : ∀ v, (children v).isSome → v ∈ keys)
    (starts : List ι) :
    ∃ found marks, visitAll (visit children (keys.length + 1)) starts ⟨[], []⟩
        = some (found, marks) ∧
      (found = false → ∀ s ∈ starts, Acc (Child children) s) ∧
      (found = true → ∃ v, Relation.TransGen (Child children) v v) := by
  obtain ⟨⟨found, marks⟩, heq, hv⟩ := visitAll_verdict (f := visit children (keys.length + 1))
    starts ⟨[], []⟩ ⟨by simp, by simp, List.nodup_nil, by simp⟩ fun s _ m hm hsm =>
      visit_verdict hkeys _ s m hsm (by omega)
  refine ⟨found, marks, heq, ?_, ?_⟩
  · rintro rfl
    exact hv.2.2
  · rintro rfl
    exact hv

/-! ### The worklist search -/

/-- Pop a vertex, skip it when it is excluded or already reached, and push its children
otherwise; `none` when the rounds run out. -/
def reach (next : ι → List ι) (skip : ι → Bool) : Nat → List ι → List ι → Option (List ι)
  | 0, _, _ => none
  | _ + 1, [], reached => some reached
  | rounds + 1, id :: stack, reached =>
      if skip id || id ∈ reached then reach next skip rounds stack reached
      else reach next skip rounds ((next id).reverse ++ stack) (id :: reached)

/-- The children not yet pushed: those of the keys that are not reached. -/
def unpushed (next : ι → List ι) (keys reached : List ι) : Nat :=
  ((keys.filter (· ∉ reached)).map fun v => (next v).length).sum

omit [DecidableEq ι] in
/-- Dropping `x` from a filtered list drops its weight from the sum. -/
private theorem sum_filter_drop {p q : ι → Bool} {w : ι → Nat} {x : ι} :
    ∀ {l : List ι}, (∀ a ∈ l, p a = true → q a = true) →
      ((l.filter p).map w).sum ≤ ((l.filter q).map w).sum ∧
        (x ∈ l → p x = false → q x = true →
          ((l.filter p).map w).sum + w x ≤ ((l.filter q).map w).sum) := by
  intro l
  induction l with
  | nil => intro _; simp
  | cons a rest ih =>
      intro himp
      obtain ⟨hle, hdrop⟩ := ih fun b hb => himp b (by simp [hb])
      have ha := himp a (by simp)
      refine ⟨?_, ?_⟩
      · by_cases hpa : p a = true
        · simpa [List.filter_cons, hpa, ha hpa] using hle
        · by_cases hqa : q a = true
          · simp [hpa, hqa]
            omega
          · simpa [List.filter_cons, hpa, hqa] using hle
      · intro hx hp hq
        rcases List.mem_cons.mp hx with rfl | hx'
        · simp [hp, hq]
          omega
        · have hd := hdrop hx' hp hq
          by_cases hpa : p a = true
          · simp [hpa, ha hpa]
            omega
          · by_cases hqa : q a = true
            · simp [hpa, hqa]
              omega
            · simpa [List.filter_cons, hpa, hqa] using hd

/-- **Enough rounds end the search, and what it reached is exactly what the worklist
leads to through vertices that are not skipped.** -/
theorem reach_spec {next : ι → List ι} {skip : ι → Bool} {keys : List ι}
    (hkeys : ∀ v, next v ≠ [] → v ∈ keys) :
    ∀ (rounds : Nat) (stack reached : List ι),
      stack.length + unpushed next keys reached < rounds →
      (∀ v ∈ reached, ∀ c ∈ next v, skip c = false → c ∈ reached ∨ c ∈ stack) →
      ∃ r, reach next skip rounds stack reached = some r ∧ reached ⊆ r ∧
        (∀ v ∈ stack, skip v = false → v ∈ r) ∧
        (∀ v ∈ r, ∀ c ∈ next v, skip c = false → c ∈ r) ∧
        ∀ P : ι → Prop, (∀ v ∈ reached, P v) → (∀ v ∈ stack, skip v = false → P v) →
          (∀ v c, P v → c ∈ next v → skip c = false → P c) → ∀ v ∈ r, P v := by
  intro rounds
  induction rounds with
  | zero => intro stack reached h; omega
  | succ rounds ih =>
      intro stack reached hroom hopen
      cases stack with
      | nil =>
          refine ⟨reached, rfl, fun _ h => h, by simp, ?_, fun P hr _ _ => hr⟩
          intro v hv c hc hskip
          exact (hopen v hv c hc hskip).resolve_right (by simp)
      | cons id stack =>
          unfold reach
          by_cases hskip : (skip id || decide (id ∈ reached)) = true
          · rw [if_pos hskip]
            have hcase : skip id = true ∨ id ∈ reached := by simpa using hskip
            obtain ⟨r, hr, hsub, hstack, hclosed, hleast⟩ := ih stack reached
              (by simp only [List.length_cons] at hroom; omega) (by
                intro v hv c hc hsc
                rcases hopen v hv c hc hsc with h | h
                · exact Or.inl h
                · rcases List.mem_cons.mp h with rfl | h'
                  · exact Or.inl (hcase.resolve_left (by simp [hsc]))
                  · exact Or.inr h')
            refine ⟨r, hr, hsub, ?_, hclosed, ?_⟩
            · intro v hv hsv
              rcases List.mem_cons.mp hv with rfl | hv'
              · exact hsub (hcase.resolve_left (by simp [hsv]))
              · exact hstack v hv' hsv
            · intro P hre hst hstep
              exact hleast P hre (fun v hv => hst v (by simp [hv])) hstep
          · rw [if_neg hskip]
            have hnot : skip id = false ∧ id ∉ reached := by simpa using hskip
            -- The children of `id` move from the unpushed ones onto the worklist.
            have hmove : (next id).length + unpushed next keys (id :: reached)
                ≤ unpushed next keys reached := by
              unfold unpushed
              have hsum := sum_filter_drop (p := fun v => decide (v ∉ id :: reached))
                (q := fun v => decide (v ∉ reached)) (w := fun v => (next v).length) (x := id)
                (l := keys) (by intro a _; simp)
              by_cases hid : id ∈ keys
              · have := hsum.2 hid (by simp) (by simp [hnot.2])
                omega
              · have hnil : next id = [] := by
                  by_contra hne
                  exact hid (hkeys id hne)
                simpa [hnil] using hsum.1
            obtain ⟨r, hr, hsub, hstack, hclosed, hleast⟩ :=
              ih ((next id).reverse ++ stack) (id :: reached)
                (by
                  simp only [List.length_cons] at hroom
                  rw [List.length_append, List.length_reverse]
                  omega)
                (by
                  intro v hv c hc hsc
                  rcases List.mem_cons.mp hv with rfl | hv'
                  · exact Or.inr (by simp [hc])
                  · rcases hopen v hv' c hc hsc with h | h
                    · exact Or.inl (by simp [h])
                    · rcases List.mem_cons.mp h with rfl | h'
                      · exact Or.inl (by simp)
                      · exact Or.inr (by simp [h']))
            refine ⟨r, hr, fun v hv => hsub (by simp [hv]), ?_, hclosed, ?_⟩
            · intro v hv hsv
              rcases List.mem_cons.mp hv with rfl | hv'
              · exact hsub (by simp)
              · exact hstack v (by simp [hv']) hsv
            · intro P hre hst hstep
              have hid : P id := hst id (by simp) hnot.1
              refine hleast P ?_ ?_ hstep
              · intro v hv
                rcases List.mem_cons.mp hv with rfl | hv'
                · exact hid
                · exact hre v hv'
              · intro v hv hsv
                rcases List.mem_append.mp hv with h | h
                · exact hstep id v hid (by simpa using h) hsv
                · exact hst v (by simp [h]) hsv

end Dfs
