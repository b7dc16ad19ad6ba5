import SpecLint.Proofs.Detection
import SpecLint.Proofs.Extent

/-!
# Selectors tell calls apart

A call is reported at its selector: the name of the method, a dot, an operator, all from the opening
bracket on, or the whole call where none of these is there.  Two calls that are reported never have
one selector.  Unless it is the whole call, a selector begins outside of every node that is lowered
from the call; for a dot this is because it is a leaf.  What has the extent of a call that is its
own selector would have to lie below its receiver, where the name of the expectation takes up some
bytes.

* `Concrete.BareDots` — the dots among the children of a node are leaves.
* `Chains` — a node that stands for a call on an expectation.
* `Selects` — where the selector of a node begins and ends.
* `exists_selects` — the selector of a node that chains begins outside of what is lowered from it.
* `selector_ne_of_below`, `selector_ne_of_apart` — **selectors differ**.
-/

namespace SpecLint

/-- Whether the dots among the children of a node are leaves.  A dot that is none could hold the
arguments of its call. -/
def Concrete.BareDots (n : Concrete) : Prop :=
  ∀ c ∈ n.children, c.named = false → c.kind ∈ [".", "&."] → c.children = []

instance : DecidablePred Concrete.BareDots := fun n =>
  inferInstanceAs (Decidable (∀ c ∈ n.children, _ → _ → c.children = []))

namespace Lowering

open Concrete

variable {source : ByteArray} {p q r c x y : Concrete} {call call' : Sending} {start stop : Nat}

/-! ## Calls on expectations -/

/-- Whether `r` may be an expectation: a name, or a call of a named method on nothing. -/
def MayExpect (r : Concrete) : Prop :=
  r.role = .identifier ∨ r.role = .call ∧ r.childByField? "receiver" = none ∧
    ∃ method, r.childByField? "method" = some method

theorem mayExpect_of_expectsRunner {before : List Event} (h : ExpectsRunner source before r) :
    MayExpect r := by
  rcases h with ⟨hrole, -, -⟩ | ⟨hrole, ⟨hreceiver, hmethod⟩, -⟩
  · exact Or.inl hrole
  · refine Or.inr ⟨hrole, hreceiver, ?_⟩
    -- a call without a name calls the method `call`
    cases hfield : r.childByField? "method" with
    | some method => exact ⟨method, rfl⟩
    | none =>
        have hcall : (callSending source r).method = "call" := by simp [callSending, hfield]
        rw [hcall] at hmethod
        rcases hmethod with hmethod | ⟨hmethod, -⟩ <;> exact absurd hmethod (by decide)

/-- Whether `p` stands for the call `call`, whose receiver may be an expectation. -/
def Chains (source : ByteArray) (p : Concrete) (call : Sending) : Prop :=
  sending? source p = some call ∧ ∃ r, call.receiver = some r ∧ MayExpect r

/-! ## Places of selectors -/

/-- Whether `span` goes from `start` to `stop`, inside of `p`, and begins outside of every node that
is lowered from `p`, unless it is the whole of `p`. -/
structure Selects (source : ByteArray) (p : Concrete) (span : Span) (start stop : Nat) : Prop where
  /-- The first byte. -/
  startByte : span.startByte = start.toUInt32
  /-- The end. -/
  endByte : span.endByte = stop.toUInt32
  /-- The bytes lie in `p`. -/
  inside : p.startByte ≤ start ∧ start < stop ∧ stop ≤ p.endByte
  /-- Either the span begins elsewhere, or it is the whole node. -/
  outside : (∀ c ∈ loweredFrom source p, c.endByte ≤ start ∨ start < c.startByte) ∨
    start = p.startByte ∧ stop = p.endByte

theorem apart_of_holder (h : p.WellNested) (hx : x ∈ p.children) (hy : y ∈ p.children)
    (hne : x ≠ y) (hc : y.Inside c) : x.Apart c :=
  (h.apart hx hy hne).of_inside ⟨Nat.le_refl _, Nat.le_refl _⟩ hc

/-- A selector that begins with a child from which nothing is lowered. -/
theorem selects_of_apart (h : p.WellNested) (hx : x ∈ p.children) {stop : Nat}
    (hstop : x.startByte < stop ∧ stop ≤ p.endByte)
    (hapart : ∀ c ∈ loweredFrom source p, x.Apart c) :
    Selects source p (spanUntil x stop) x.startByte stop where
  startByte := rfl
  endByte := rfl
  inside := ⟨(h.inside hx).1, hstop⟩
  outside := Or.inl fun c hc => by
    have hcovers := (h.child hx).covers
    rcases hapart c hc with hbefore | hafter
    · omega
    · omega

theorem selects_whole (h : p.WellNested) :
    Selects source p (spanOf p) p.startByte p.endByte where
  startByte := rfl
  endByte := rfl
  inside := ⟨Nat.le_refl _, h.covers, Nat.le_refl _⟩
  outside := Or.inr ⟨rfl, rfl⟩

/-- The name of a method stands apart from what is lowered from the call. -/
theorem apart_method (h : p.WellNested) (hrole : p.role = .call) {method : Concrete}
    (hmethod : p.childByField? "method" = some method) :
    ∀ c ∈ loweredFrom source p, method.Apart c := by
  intro c hc
  rw [loweredFrom, hrole] at hc
  rcases mem_loweredFrom_call hc with hreceiver | ⟨holder, hholder, hc⟩ | ⟨holder, hholder, hc⟩
  · exact h.apart_of_fields hmethod hreceiver (by decide)
  all_goals
    exact apart_of_fields h hmethod hholder (by decide) ⟨Nat.le_refl _, Nat.le_refl _⟩
      ((h.child (mem_children_of_childByField? hholder)).inside hc)

theorem token_of_token? {text : String} (h : p.token? text = some x) :
    x ∈ p.children ∧ x.named = false ∧ x.kind = text := by
  refine ⟨List.mem_of_find?_eq_some h, ?_⟩
  simpa using List.find?_some h

/-- A token is no expectation. -/
theorem ne_of_mayExpect (hr : MayExpect r) (hkind : x.kind ∈ [".", "&.", "["]) : x ≠ r := by
  rintro rfl
  have hrole : x.role = .plain := by
    rw [Concrete.role]
    rcases List.mem_cons.1 hkind with heq | hkind
    · rw [heq]
      decide
    · rcases List.mem_cons.1 hkind with heq | hkind
      · rw [heq]
        decide
      · rw [List.mem_singleton.1 hkind]
        decide
  rcases hr with hr | ⟨hr, -⟩ <;> simp [hrole] at hr

/-- The dot of a call on an expectation stands apart from what is lowered from the call. -/
theorem apart_dot (h : p.WellNested) (hdots : p.BareDots) (hrole : p.role = .call)
    (hr : ∀ r, p.childByField? "receiver" = some r → MayExpect r) (hx : x ∈ p.children)
    (hnamed : x.named = false) (hkind : x.kind ∈ [".", "&."]) :
    ∀ c ∈ loweredFrom source p, x.Apart c := by
  intro c hc
  have hleaf := hdots x hx hnamed hkind
  rw [loweredFrom, hrole] at hc
  rcases mem_loweredFrom_call hc with hreceiver | ⟨holder, hholder, hc⟩ | ⟨holder, hholder, hc⟩
  · exact h.apart hx (mem_children_of_childByField? hreceiver)
      (ne_of_mayExpect (hr c hreceiver) (List.mem_append_left ["["] hkind))
  all_goals
    have hmem := mem_children_of_childByField? hholder
    refine apart_of_holder h hx hmem ?_ ((h.child hmem).inside hc)
    rintro rfl
    rw [hleaf] at hc
    exact List.not_mem_nil hc

/-- Where the selector of a call stands. -/
theorem selects_call (h : p.WellNested) (hdots : p.BareDots) (hrole : p.role = .call)
    (hr : ∀ r, p.childByField? "receiver" = some r → MayExpect r) :
    ∃ start stop, Selects source p (callSending source p).selector start stop := by
  have hchild {x : Concrete} (hx : x ∈ p.children)
      (hapart : ∀ c ∈ loweredFrom source p, x.Apart c) :
      ∃ start stop, Selects source p (spanOf x) start stop :=
    ⟨_, _, selects_of_apart h hx ⟨(h.child hx).covers, (h.inside hx).2⟩ hapart⟩
  cases hmethod : p.childByField? "method" with
  | some method =>
      have hselector : (callSending source p).selector = spanOf method := by
        simp [callSending, hmethod]
      rw [hselector]
      exact hchild (mem_children_of_childByField? hmethod) (apart_method h hrole hmethod)
  | none =>
      have hselector : (callSending source p).selector =
          spanOf (((p.token? ".").or (p.token? "&.")).getD p) := by
        simp [callSending, hmethod]
      rw [hselector]
      cases hdot : (p.token? ".").or (p.token? "&.") with
      | none => exact ⟨_, _, selects_whole h⟩
      | some dot =>
          obtain ⟨hmem, hnamed, hkind⟩ : dot ∈ p.children ∧ dot.named = false ∧
              dot.kind ∈ [".", "&."] := by
            rcases Option.or_eq_some_iff.1 hdot with hdot | ⟨-, hdot⟩
            · obtain ⟨hmem, hnamed, hkind⟩ := token_of_token? hdot
              exact ⟨hmem, hnamed, by simp [hkind]⟩
            · obtain ⟨hmem, hnamed, hkind⟩ := token_of_token? hdot
              exact ⟨hmem, hnamed, by simp [hkind]⟩
          exact hchild hmem (apart_dot h hdots hrole hr hmem hnamed hkind)

/-- Where the selector of an operator or an element access stands. -/
theorem selects_operator (h : p.WellNested) (hcall : operatorSending? source p = some call)
    (hr : ∀ r, call.receiver = some r → MayExpect r) :
    ∃ start stop, Selects source p call.selector start stop := by
  have hlowered : loweredFrom source p = call.operands := by
    rcases role_of_operatorSending hcall with hrole | hrole | hrole <;>
      simp [loweredFrom, hrole, hcall]
  have hoperator {operator : Concrete} (hoperator : p.childByField? "operator" = some operator)
      (hoperands : ∀ c ∈ call.operands, ∃ field, field ≠ "operator" ∧
        p.childByField? field = some c) :
      ∃ start stop, Selects source p (spanOf operator) start stop := by
    have hmem := mem_children_of_childByField? hoperator
    refine ⟨_, _, selects_of_apart h hmem ⟨(h.child hmem).covers, (h.inside hmem).2⟩ ?_⟩
    intro c hc
    obtain ⟨field, hne, hfield⟩ := hoperands c (hlowered ▸ hc)
    exact h.apart_of_fields hoperator hfield (Ne.symm hne)
  cases operatorForm hcall with
  | binary _ hleft hoperator' hright =>
      refine hoperator hoperator' fun c hc => ?_
      rcases List.mem_cons.1 hc with rfl | hc
      · exact ⟨"left", by decide, hleft⟩
      · obtain rfl := List.mem_singleton.1 hc
        exact ⟨"right", by decide, hright⟩
  | unary _ hoperator' hoperand =>
      refine hoperator hoperator' fun c hc => ?_
      obtain rfl := List.mem_singleton.1 hc
      exact ⟨"operand", by decide, hoperand⟩
  | element _ hobject =>
      cases hbracket : p.token? "[" with
      | none => exact ⟨_, _, selects_whole h⟩
      | some bracket =>
          obtain ⟨hmem, hnamed, hkind⟩ := token_of_token? hbracket
          refine ⟨_, _, selects_of_apart h hmem ⟨Nat.lt_of_lt_of_le (h.child hmem).covers
            (h.inside hmem).2, Nat.le_refl _⟩ fun c hc => ?_⟩
          rw [hlowered] at hc
          rcases List.mem_cons.1 hc with rfl | hc
          · exact h.apart hmem (mem_children_of_childByField? hobject)
              (ne_of_mayExpect (hr _ rfl) (by simp [hkind]))
          · refine h.apart hmem (mem_children_of_mem_parts hc) ?_
            rintro rfl
            simp [Concrete.parts, hnamed] at hc

/-- **The selector of a call on an expectation** begins outside of what is lowered from the call, or
is the whole call. -/
theorem exists_selects (h : p.WellNested) (hdots : p.BareDots) (hp : Chains source p call) :
    ∃ start stop, Selects source p call.selector start stop := by
  obtain ⟨hcall, r, hreceiver, hr⟩ := hp
  have hreceivers : ∀ r, call.receiver = some r → MayExpect r := by
    intro r' hr'
    rw [hreceiver] at hr'
    exact Option.some.inj hr' ▸ hr
  by_cases hrole : p.role = .call
  · rw [sending?, if_pos hrole] at hcall
    cases hcall
    exact selects_call h hdots hrole hreceivers
  · rw [sending?, if_neg hrole] at hcall
    exact selects_operator h hcall hreceivers

/-! ## Different calls have different selectors -/

/-- Offsets in a source that is not too long are kept by 32-bit words. -/
theorem eq_of_toUInt32_eq {a b : Nat} (ha : a ≤ maxSourceSize) (hb : b ≤ maxSourceSize)
    (h : a.toUInt32 = b.toUInt32) : a = b := by
  have hmod := congrArg UInt32.toNat h
  simp only [Nat.toUInt32, UInt32.toNat_ofNat'] at hmod
  unfold maxSourceSize at ha hb
  omega

/-- A span says where it begins and ends. -/
theorem Selects.unique {span : Span} {start stop start' stop' : Nat}
    (h : Selects source p span start stop) (h' : Selects source q span start' stop')
    (hsize : p.endByte ≤ maxSourceSize) (hsize' : q.endByte ≤ maxSourceSize) :
    start = start' ∧ stop = stop' := by
  obtain ⟨-, hlt, hhi⟩ := h.inside
  obtain ⟨-, hlt', hhi'⟩ := h'.inside
  constructor
  · refine eq_of_toUInt32_eq (by omega) (by omega) ?_
    rw [← h.startByte, h'.startByte]
  · refine eq_of_toUInt32_eq (by omega) (by omega) ?_
    rw [← h.endByte, h'.endByte]

/-- A call that lies below a receiver which may be an expectation does not fill it. -/
theorem not_fills (h : r.WellNested) (hr : MayExpect r) (hq : Reached source r q)
    (hcall : Chains source q call) : ¬ (q.startByte ≤ r.startByte ∧ r.endByte ≤ q.endByte) := by
  rintro ⟨hstart, hend⟩
  obtain ⟨hcall, r', hreceiver, -⟩ := hcall
  rcases hr with hrole | ⟨hrole, hnone, method, hmethod⟩
  · -- nothing is lowered from a name
    rcases reached_iff.1 hq with rfl | ⟨c, hc, -⟩
    · simp [sending?, operatorSending?, hrole] at hcall
    · simp [loweredFrom, hrole] at hc
  · rcases reached_iff.1 hq with rfl | ⟨c, hc, hq⟩
    · rw [sending?, if_pos hrole] at hcall
      cases hcall
      simp [callSending, hnone] at hreceiver
    · -- the name of the method is left over
      have hmem := mem_children_of_childByField? hmethod
      have hcovers := (h.child hmem).covers
      have hinside := h.inside hmem
      have hq := (wellNested_of_reached (wellNested_of_mem_loweredFrom h hc).1 hq).2
      have hapart := (apart_method h hrole hmethod c hc).of_inside
        ⟨Nat.le_refl _, Nat.le_refl _⟩ hq
      obtain ⟨hlo, hhi⟩ := hinside
      rcases hapart with hbefore | hafter <;> omega

/-- **A call on an expectation and one below it have different selectors.** -/
theorem selector_ne_of_below (h : p.WellNested) (hdots : p.BareDots) (hdots' : q.BareDots)
    (hsize : p.endByte ≤ maxSourceSize) (hp : Chains source p call) (hq : Chains source q call')
    (hbelow : Below source p q) : call.selector ≠ call'.selector := by
  intro heq
  obtain ⟨c, hc, hreached⟩ := hbelow
  obtain ⟨hcwell, hcinside⟩ := wellNested_of_mem_loweredFrom h hc
  obtain ⟨hqwell, hqinside⟩ := wellNested_of_reached hcwell hreached
  obtain ⟨start, stop, hselects⟩ := exists_selects h hdots hp
  obtain ⟨start', stop', hselects'⟩ := exists_selects hqwell hdots' hq
  obtain ⟨hlo', hlt', hhi'⟩ := hselects'.inside
  obtain ⟨hcstart, hcend⟩ := hcinside
  obtain ⟨hqstart, hqend⟩ := hqinside
  rw [← heq] at hselects'
  obtain ⟨rfl, rfl⟩ := hselects.unique hselects' hsize (by omega)
  rcases hselects.outside with houtside | ⟨hwhole, hwhole'⟩
  · rcases houtside c hc with hbefore | hafter <;> omega
  · -- the call is its own selector, and the other one fills it
    obtain ⟨hcall, r, hreceiver, hr⟩ := hp
    have hmem : r ∈ loweredFrom source p := by
      rw [← lower_mem_agenda]
      obtain ⟨tail, -, hagenda⟩ := agenda_of_sending hcall
      rw [hagenda]
      simp [Sending.operands, hreceiver]
    obtain ⟨hrwell, hrstart, hrend⟩ := wellNested_of_mem_loweredFrom h hmem
    have hcovers := hrwell.covers
    have hsame : c = r := Classical.byContradiction fun hne => by
      rcases apart_of_mem_loweredFrom h hc hmem hne with hbefore | hafter <;> omega
    subst hsame
    exact not_fills hcwell hr hreached hq ⟨by omega, by omega⟩

theorem selector_ne_of_apart (hpwell : p.WellNested) (hqwell : q.WellNested)
    (hdots : p.BareDots) (hdots' : q.BareDots) (hsize : p.endByte ≤ maxSourceSize)
    (hsize' : q.endByte ≤ maxSourceSize) (hp : Chains source p call)
    (hq : Chains source q call') (hapart : p.Apart q) : call.selector ≠ call'.selector := by
  intro heq
  obtain ⟨start, stop, hselects⟩ := exists_selects hpwell hdots hp
  obtain ⟨start', stop', hselects'⟩ := exists_selects hqwell hdots' hq
  rw [← heq] at hselects'
  obtain ⟨rfl, rfl⟩ := hselects.unique hselects' hsize hsize'
  obtain ⟨hlo, hlt, hhi⟩ := hselects.inside
  obtain ⟨hlo', -, hhi'⟩ := hselects'.inside
  rcases hapart with hbefore | hafter <;> omega

/-- **Two visits of calls on expectations with one selector are one visit.** -/
theorem visit_eq_of_selector_eq {root : Concrete} (h : root.WellNested)
    (hdots : root.Everywhere BareDots) (hsize : root.endByte ≤ maxSourceSize)
    {before before' after after' : List Event}
    (hp : course source root = before ++ .enter p :: after)
    (hq : course source root = before' ++ .enter q :: after')
    (hcall : Chains source p call) (hcall' : Chains source q call')
    (heq : call.selector = call'.selector) : before = before' ∧ p = q := by
  have hvisited {p : Concrete} {before after : List Event}
      (hvisit : course source root = before ++ .enter p :: after) :
      p.WellNested ∧ p.BareDots ∧ p.endByte ≤ maxSourceSize := by
    have hreached : Reached source root p := enter_mem_course.1 (by simp [hvisit])
    obtain ⟨hwell, hinside⟩ := wellNested_of_reached h hreached
    exact ⟨hwell, (everywhere_of_reached hdots hreached).here, Nat.le_trans hinside.2 hsize⟩
  obtain ⟨hpwell, hpdots, hpsize⟩ := hvisited hp
  obtain ⟨hqwell, hqdots, hqsize⟩ := hvisited hq
  rcases visits_cases h hp hq with hsame | hbelow | hbelow | hapart
  · exact hsame
  · exact absurd heq (selector_ne_of_below hpwell hpdots hqdots hpsize hcall hcall' hbelow)
  · exact absurd heq.symm (selector_ne_of_below hqwell hqdots hpdots hqsize hcall' hcall hbelow)
  · exact absurd heq
      (selector_ne_of_apart hpwell hqwell hpdots hqdots hpsize hqsize hcall hcall' hapart)

end Lowering

end SpecLint
