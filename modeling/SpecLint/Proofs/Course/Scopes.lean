import SpecLint.Proofs.Course

/-!
# The scopes along a course

The events before a place in a course tell which scopes are open there.  A scope is known by the
place where it was opened.

* `scopesAround` — the scopes open after some events, the innermost first.
* `Balanced` — scopes are opened and closed in pairs of one kind.
* `balanced_course` — **every course is balanced**.
* `Balanced.along` — an event that closes a scope closes one that was opened, and of its kind.
-/

namespace SpecLint

namespace Lowering

/-- Where an event stands in a list with one more event at its end. -/
theorem split_concat {events earlier later : List Event} {e x : Event}
    (h : events ++ [e] = earlier ++ x :: later) :
    (earlier = events ∧ e = x ∧ later = []) ∨
      ∃ later', events = earlier ++ x :: later' ∧ later = later' ++ [e] := by
  rcases List.eq_nil_or_concat later with rfl | ⟨later', last, rfl⟩
  · obtain ⟨rfl, he⟩ := List.append_inj' h rfl
    exact Or.inl ⟨rfl, (List.cons.inj he).1, rfl⟩
  · rw [List.concat_eq_append, ← List.cons_append, ← List.append_assoc] at h
    obtain ⟨rfl, he⟩ := List.append_inj' h rfl
    exact Or.inr ⟨later', rfl, by rw [List.concat_eq_append, he]⟩

/-- A scope that was opened. -/
structure Opened where
  /-- Number of events before the scope was opened. -/
  place : Nat
  /-- The kind of the scope. -/
  kind : ScopeKind

/-- Whether an event opens or closes a scope. -/
def Event.delimits : Event → Bool
  | .opened _ | .closed _ | .wrapped .. => true
  | _ => false

/-- Whether an event closes a scope. -/
def Event.closing : Event → Bool
  | .closed _ | .wrapped .. => true
  | _ => false

/-- Whether an event closes a scope of the given kind. -/
def Event.Closes : Event → ScopeKind → Prop
  | .closed kind, kind' => kind = kind'
  | .wrapped .., .attached _ => True
  | _, _ => False

/-- The scopes open after some events, where those in `chain` were open before them and `place`
events came before. -/
def scopesFrom (place : Nat) (chain : List Opened) : List Event → List Opened
  | [] => chain
  | .opened kind :: events => scopesFrom (place + 1) (⟨place, kind⟩ :: chain) events
  | .closed _ :: events | .wrapped .. :: events => scopesFrom (place + 1) chain.tail events
  | _ :: events => scopesFrom (place + 1) chain events

/-- The scopes open after some events, the innermost first, that of the whole source left out. -/
def scopesAround (events : List Event) : List Opened := scopesFrom 0 [] events

variable {place : Nat} {chain : List Opened}

theorem scopesFrom_append (first second : List Event) : scopesFrom place chain (first ++ second) =
    scopesFrom (place + first.length) (scopesFrom place chain first) second := by
  induction first generalizing place chain with
  | nil => rfl
  | cons e first ih =>
      have hplace : place + (e :: first).length = place + 1 + first.length := by
        rw [List.length_cons]
        omega
      rw [hplace]
      cases e <;> exact ih

theorem scopesAround_append (first second : List Event) : scopesAround (first ++ second) =
    scopesFrom first.length (scopesAround first) second := by
  rw [scopesAround, scopesFrom_append, Nat.zero_add]
  rfl

theorem scopesFrom_cons_of_not_delimits {e : Event} (h : e.delimits = false) (events : List Event) :
    scopesFrom place chain (e :: events) = scopesFrom (place + 1) chain events := by
  cases e <;> first | rfl | simp [Event.delimits] at h

theorem scopesFrom_cons_of_closing {e : Event} (h : e.closing = true) (events : List Event) :
    scopesFrom place chain (e :: events) = scopesFrom (place + 1) chain.tail events := by
  cases e <;> first | rfl | simp [Event.closing] at h

theorem Event.Closes.closing {e : Event} {kind : ScopeKind} (h : e.Closes kind) :
    e.closing = true := by
  cases e <;> first | rfl | exact absurd h (by simp [Event.Closes])

theorem Event.closing_eq_false {e : Event} (h : e.delimits = false) : e.closing = false := by
  cases e <;> first | rfl | simp [Event.delimits] at h

/-- A scope was opened at one of the places before. -/
theorem place_lt {o : Opened} {events : List Event}
    (h : o ∈ scopesFrom place chain events) (hchain : ∀ o ∈ chain, o.place < place) :
    o.place < place + events.length := by
  induction events generalizing place chain with
  | nil => exact hchain o h
  | cons e events ih =>
      have hweak : ∀ o ∈ chain, o.place < place + 1 :=
        fun o ho => Nat.lt_succ_of_lt (hchain o ho)
      have hplace : place + (e :: events).length = place + 1 + events.length := by
        rw [List.length_cons]
        omega
      rw [hplace]
      cases e with
      | opened kind =>
          refine ih h fun o ho => ?_
          rcases List.mem_cons.1 ho with rfl | ho
          · exact Nat.lt_succ_self place
          · exact hweak o ho
      | closed | wrapped => exact ih h fun o ho => hweak o (List.mem_of_mem_tail ho)
      | enter | bound | read | pushed => exact ih h hweak

/-! ## Balanced events -/

/-- Events that open and close scopes in pairs of one kind. -/
inductive Balanced : List Event → Prop where
  /-- No events. -/
  | nil : Balanced []
  /-- An event that opens and closes no scope. -/
  | cons {e : Event} {events : List Event} (unscoped : e.delimits = false)
      (rest : Balanced events) : Balanced (e :: events)
  /-- A scope with the events inside. -/
  | nest {kind : ScopeKind} {e : Event} {inner events : List Event} (closes : e.Closes kind)
      (inside : Balanced inner) (rest : Balanced events) :
      Balanced (.opened kind :: (inner ++ e :: events))

namespace Balanced

theorem append {first second : List Event} (h : Balanced first) (hsecond : Balanced second) :
    Balanced (first ++ second) := by
  induction h with
  | nil => exact hsecond
  | cons unscoped _ ih => exact cons unscoped ih
  | nest closes inside _ _ ih =>
      rw [List.cons_append, List.append_assoc, List.cons_append]
      exact nest closes inside ih

theorem flatMap {items : List Concrete} {f : Concrete → List Event}
    (h : ∀ c ∈ items, Balanced (f c)) : Balanced (items.flatMap f) := by
  induction items with
  | nil => exact nil
  | cons c items ih =>
      rw [List.flatMap_cons]
      exact (h c (by simp)).append (ih fun c hc => h c (by simp [hc]))

theorem of_unscoped {events : List Event} (h : ∀ e ∈ events, e.delimits = false) :
    Balanced events := by
  induction events with
  | nil => exact nil
  | cons e events ih => exact cons (h e (by simp)) (ih fun e he => h e (by simp [he]))

theorem wrap {inner : List Event} (h : Balanced inner) {kind : ScopeKind} {e : Event}
    (closes : e.Closes kind) : Balanced (.opened kind :: (inner ++ [e])) :=
  nest closes h nil

/-- Balanced events leave the scopes as they were. -/
theorem scopesFrom_eq {events : List Event} (h : Balanced events) (place : Nat)
    (chain : List Opened) : scopesFrom place chain events = chain := by
  induction h generalizing place chain with
  | nil => rfl
  | cons unscoped _ ih => rw [scopesFrom_cons_of_not_delimits unscoped, ih]
  | nest closes _ _ ihinner ihrest =>
      rw [scopesFrom, scopesFrom_append, ihinner, scopesFrom_cons_of_closing closes.closing]
      exact ihrest _ _

/-- Along balanced events the scopes from before stay open, and an event that closes a scope closes
one that was opened after them, of its kind. -/
theorem along {events : List Event} (h : Balanced events) {first second : List Event}
    (hsplit : events = first ++ second) (place : Nat) (chain : List Opened) :
    ∃ inner, scopesFrom place chain first = inner ++ chain ∧
      ∀ e, second.head? = some e → e.closing = true →
        ∃ o outer, inner = o :: outer ∧ e.Closes o.kind := by
  induction h generalizing first second place chain with
  | nil =>
      obtain ⟨rfl, rfl⟩ := List.append_eq_nil_iff.1 hsplit.symm
      exact ⟨[], rfl, fun e he => by simp at he⟩
  | @cons e events unscoped _ ih =>
      cases first with
      | nil =>
          refine ⟨[], rfl, fun e' he' hclosing => ?_⟩
          rw [← show e :: events = second from hsplit] at he'
          obtain rfl : e = e' := by simpa using he'
          simp [Event.closing_eq_false unscoped] at hclosing
      | cons e' first =>
          obtain ⟨rfl, hrest⟩ := List.cons.inj hsplit
          rw [scopesFrom_cons_of_not_delimits unscoped]
          exact ih hrest _ _
  | @nest kind e inner events closes hinside _ ihinner ihrest =>
      -- at the end of the scope, the event that closes it comes next
      have hend (second : List Event) (hsecond : second = e :: events) :
          ∃ deeper, ⟨place, kind⟩ :: chain = deeper ++ chain ∧
            ∀ e, second.head? = some e → e.closing = true →
              ∃ o outer, deeper = o :: outer ∧ e.Closes o.kind := by
        refine ⟨[⟨place, kind⟩], rfl, fun e' he' _ => ⟨⟨place, kind⟩, [], rfl, ?_⟩⟩
        obtain rfl : e = e' := by simpa [hsecond] using he'
        exact closes
      cases first with
      | nil =>
          refine ⟨[], rfl, fun e' he' hclosing => ?_⟩
          rw [← show _ = second from hsplit] at he'
          obtain rfl : .opened kind = e' := by simpa using he'
          simp [Event.closing] at hclosing
      | cons e' first =>
          obtain ⟨rfl, hrest⟩ := List.cons.inj hsplit
          rw [scopesFrom]
          rcases List.append_eq_append_iff.1 hrest with ⟨more, rfl, hmore⟩ | ⟨more, rfl, hmore⟩
          · cases more with
            | nil =>
                rw [List.append_nil, hinside.scopesFrom_eq]
                exact hend second hmore.symm
            | cons e'' more =>
                -- after the scope
                obtain ⟨rfl, hafter⟩ := List.cons.inj hmore
                rw [scopesFrom_append, hinside.scopesFrom_eq,
                  scopesFrom_cons_of_closing closes.closing]
                exact ihrest hafter _ _
          · cases more with
            | nil =>
                rw [List.append_nil] at hinside
                rw [hinside.scopesFrom_eq]
                exact hend second hmore
            | cons e'' more =>
                -- inside the scope
                obtain ⟨deeper, hdeeper, hcloses⟩ :=
                  ihinner rfl (place + 1) (⟨place, kind⟩ :: chain)
                refine ⟨deeper ++ [⟨place, kind⟩], by simp [hdeeper], fun e' he' hclosing => ?_⟩
                obtain ⟨o, outer, rfl, ho⟩ := hcloses e' (by simpa [hmore] using he') hclosing
                exact ⟨o, outer ++ [⟨place, kind⟩], rfl, ho⟩

end Balanced

/-! ## Courses are balanced -/

theorem balanced_parameterEvents (params : Concrete) : Balanced (parameterEvents params) := by
  refine Balanced.of_unscoped fun e he => ?_
  rcases eq_of_mem_parameterEvents he with ⟨b, rfl⟩ | ⟨kind, span, rfl⟩ | ⟨arity, span, rfl⟩ <;> rfl

theorem balanced_blockParamEvents (block : Concrete) : Balanced (blockParamEvents block) := by
  unfold blockParamEvents
  split
  · exact balanced_parameterEvents _
  · exact .cons rfl .nil

variable {source : ByteArray}

theorem balanced_overSteps {items : List Concrete} (h : ∀ c ∈ items, Balanced (course source c))
    (head : Head) (span : Span) : Balanced (stepsCourse source (overSteps items head span)) := by
  rw [stepsCourse_overSteps]
  exact (Balanced.flatMap h).append (.cons rfl .nil)

theorem balanced_blockBodySteps {block : Concrete}
    (h : ∀ c ∈ blockItems block, Balanced (course source c)) :
    Balanced (stepsCourse source (blockBodySteps block)) := by
  unfold blockBodySteps
  split
  · exact balanced_overSteps h _ _
  · rw [stepsCourse_map_lower]
    exact Balanced.flatMap h

theorem balanced_attachedSteps {block : Concrete}
    (h : ∀ c ∈ blockItems block, Balanced (course source c)) (span : Span) :
    Balanced (stepsCourse source (attachedSteps block span)) := by
  have hinner := (balanced_blockParamEvents block).append (balanced_blockBodySteps h)
  have hblock := @Balanced.wrap _ hinner (blockScope block)
    (.wrapped (if (blockItems block).isEmpty then 2 else 3) span) trivial
  simpa [attachedSteps, stepCourse] using hblock

theorem balanced_scopedSteps {steps : List Step} (h : Balanced (stepsCourse source steps))
    (kind : ScopeKind) : Balanced (stepsCourse source (scopedSteps kind steps)) := by
  have hscope := @Balanced.wrap _ h kind (.closed kind) rfl
  simpa [scopedSteps, stepCourse] using hscope

/-- **Every course is balanced.** -/
theorem balanced_course (n : Concrete) : Balanced (course source n) := by
  induction n using lowered_induction source with
  | step n ih =>
      rw [course_eq]
      refine .cons rfl ?_
      have hform := agenda_form source n
      generalize agenda source n = steps at hform ih ⊢
      cases hform with
      | read => exact .cons rfl .nil
      | flat names items head span =>
          have hbound : Balanced (names.map .bound) := .of_unscoped fun e he => by
            obtain ⟨_, _, rfl⟩ := List.mem_map.1 he
            rfl
          rw [stepsCourse_append, ← List.map_map, stepsCourse_map_event]
          exact hbound.append (balanced_overSteps (fun c hc => ih c (by simp [hc])) head span)
      | nested kind items head span =>
          exact balanced_scopedSteps
            (balanced_overSteps (fun c hc => ih c (by simp [scopedSteps, hc])) head span) kind
      | params =>
          rw [stepsCourse_map_event]
          exact balanced_parameterEvents n
      | attached =>
          rw [stepsCourse_append]
          exact (balanced_overSteps (fun c hc => ih c (by simp [Sending.steps, hc])) _ _).append
            (balanced_attachedSteps (fun c hc => ih c (by simp [hc])) _)

end Lowering

end SpecLint
