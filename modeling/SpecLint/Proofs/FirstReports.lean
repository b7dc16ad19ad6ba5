import Mathlib.Data.List.Induction
import SpecLint.Rule

/-!
# The first reports are kept

Offenses are collected one request at a time: an offense is added and the caller is told whether it
was stored, or a rule reports a finding and is told nothing.  After any number of requests, mixed in
any order, the collection holds the first request about each rule at each span.

* `Request`, `Offenses.serve` — one request and what it does.
* `firstAt` — whether the request at some place is the first about its rule at its span.
* `Offenses.mem_seen_serveAll` — the set of keys holds those of all requests.
* `Offenses.reported_serveAll` — the next request is refused when it is not the first.
* `Offenses.serveAll_empty` — **the collection after any requests**, and all answers.
-/

namespace SpecLint

/-! ## Requests -/

/-- What is asked of a collection of offenses. -/
inductive Request where
  /-- An offense is added; the answer tells whether it was stored. -/
  | add (offense : Offense)
  /-- A rule reports a finding at a severity, and gets no answer. -/
  | report (rule : String) (severity : Severity) (finding : Finding)

namespace Request

/-- The offense that a request is about. -/
def offense : Request → Offense
  | .add offense => offense
  | .report rule severity finding => finding.toOffense rule severity

/-- The rule and the span that a request is about. -/
def key (r : Request) : String × Span := r.offense.key

/-- What the caller is told when the offense was stored, or was not. -/
def answer (stored : Bool) : Request → Option Bool
  | .add _ => some stored
  | .report .. => none

end Request

/-- Whether none of the requests in front of place `i` is about the rule and the span of `r`. -/
def firstAt (requests : List Request) (r : Request) (i : Nat) : Bool :=
  !((requests.take i).map Request.key).contains r.key

/-- What comes behind a place does not make a request the first. -/
theorem firstAt_append {requests : List Request} {i : Nat} (h : i ≤ requests.length)
    (more : List Request) (r : Request) : firstAt (requests ++ more) r i = firstAt requests r i := by
  rw [firstAt, firstAt, List.take_append_of_le_length h]

theorem firstAt_of_mem_zipIdx {requests : List Request} {r : Request} {i : Nat}
    (h : (r, i) ∈ requests.zipIdx) (more : List Request) :
    firstAt (requests ++ more) r i = firstAt requests r i :=
  firstAt_append (Nat.le_of_lt (List.snd_lt_of_mem_zipIdx h)) more r

namespace Offenses

/-- Serves one request. -/
def serve (os : Offenses) : Request → Option Bool × Offenses
  | .add offense =>
      let (stored, rest) := os.tryAdd offense
      (some stored, rest)
  | .report rule severity finding => (none, os.add (finding.toOffense rule severity))

/-- Serves several requests, one after the other. -/
def serveAll (os : Offenses) : List Request → List (Option Bool) × Offenses
  | [] => ([], os)
  | r :: requests =>
      let (answer, rest) := os.serve r
      let (answers, last) := rest.serveAll requests
      (answer :: answers, last)

/-! ## One request -/

/-- Both kinds of request leave the same collection. -/
theorem serve_eq (os : Offenses) (r : Request) :
    os.serve r = (r.answer (!os.reported r.offense), os.add r.offense) := by
  cases r with
  | add offense => rw [← tryAdd_stored]; rfl
  | report rule severity finding => rfl

/-- A refused request leaves the collection as it is. -/
theorem add_of_reported {os : Offenses} {o : Offense} (h : os.reported o = true) :
    os.add o = os := by
  rw [add, tryAdd, dif_pos h]

theorem mem_seen_add {os : Offenses} {o : Offense} {key : String × Span} :
    key ∈ (os.add o).seen ↔ key ∈ os.seen ∨ key = o.key := by
  by_cases h : os.reported o = true
  · rw [add_of_reported h]
    have hseen : o.key ∈ os.seen := List.contains_iff_mem.1 h
    constructor
    · exact Or.inl
    · rintro (hkey | rfl)
      · exact hkey
      · exact hseen
  · rw [add, tryAdd, dif_neg h, List.mem_cons, or_comm]

/-! ## Any number of requests -/

theorem serveAll_append (os : Offenses) (first second : List Request) :
    os.serveAll (first ++ second) =
      ((os.serveAll first).1 ++ ((os.serveAll first).2.serveAll second).1,
        ((os.serveAll first).2.serveAll second).2) := by
  induction first generalizing os with
  | nil => rfl
  | cons r first ih => simp [serveAll, ih]

/-- One more request. -/
theorem serveAll_concat (os : Offenses) (requests : List Request) (r : Request) :
    os.serveAll (requests ++ [r]) =
      ((os.serveAll requests).1 ++ [((os.serveAll requests).2.serve r).1],
        ((os.serveAll requests).2.serve r).2) := by
  rw [serveAll_append]
  rfl

/-- The keys in the set are those of the requests. -/
theorem mem_seen_serveAll (requests : List Request) (key : String × Span) :
    key ∈ (empty.serveAll requests).2.seen ↔ key ∈ requests.map Request.key := by
  induction requests using List.reverseRecOn with
  | nil => exact Iff.rfl
  | append_singleton requests r ih =>
      rw [serveAll_concat, serve_eq, mem_seen_add, ih, List.map_append, List.mem_append,
        List.map_singleton, List.mem_singleton, Request.key]

/-- The next request is refused when an earlier one was about its rule and its span. -/
theorem reported_serveAll (requests : List Request) (r : Request) :
    (empty.serveAll requests).2.reported r.offense = !firstAt requests r requests.length := by
  rw [Bool.eq_iff_iff, reported, List.contains_iff_mem, mem_seen_serveAll]
  simp [firstAt, Request.key]

/-- The first ones among the requests, when one more request is made. -/
theorem filter_firstAt_concat (requests : List Request) (r : Request) :
    (requests ++ [r]).zipIdx.filter (fun (q, i) => firstAt (requests ++ [r]) q i) =
      requests.zipIdx.filter (fun (q, i) => firstAt requests q i) ++
        if firstAt requests r requests.length then [(r, requests.length)] else [] := by
  rw [List.zipIdx_append, List.filter_append]
  congr 1
  · exact List.filter_congr fun (q, i) hq => firstAt_of_mem_zipIdx hq [r]
  · simp [List.filter_cons, firstAt_append]

/-- What is stored are the offenses of the first requests. -/
theorem toList_serveAll (requests : List Request) :
    (empty.serveAll requests).2.toList =
      (requests.zipIdx.filter fun (r, i) => firstAt requests r i).map (·.1.offense) := by
  induction requests using List.reverseRecOn with
  | nil => rfl
  | append_singleton requests r ih =>
      rw [serveAll_concat, serve_eq, toList_add, ih, reported_serveAll, filter_firstAt_concat,
        List.map_append]
      cases firstAt requests r requests.length with
      | true => simp
      | false => simp

/-- The answers tell which requests were the first. -/
theorem answers_serveAll (requests : List Request) :
    (empty.serveAll requests).1 =
      requests.zipIdx.map fun (r, i) => r.answer (firstAt requests r i) := by
  induction requests using List.reverseRecOn with
  | nil => rfl
  | append_singleton requests r ih =>
      have hlast : firstAt (requests ++ [r]) r requests.length =
          firstAt requests r requests.length := firstAt_append (Nat.le_refl _) [r] r
      have hearlier : requests.zipIdx.map (fun (q, i) => q.answer (firstAt requests q i)) =
          requests.zipIdx.map fun (q, i) => q.answer (firstAt (requests ++ [r]) q i) := by
        refine List.map_congr_left fun (q, i) hq => ?_
        exact congrArg (Request.answer · q) (firstAt_of_mem_zipIdx hq [r]).symm
      rw [serveAll_concat, serve_eq, ih, reported_serveAll, Bool.not_not, hearlier,
        List.zipIdx_append, List.map_append]
      simp [hlast]

/-- **The collection after any requests.**  From an empty collection, what is stored are the
offenses of the first requests about each rule at each span, in the order of the requests and with
the severity and the message that came first.  Who added an offense is told that it was stored
exactly when the request was such a first one.  A request that is not the first leaves all of the
collection as it was. -/
theorem serveAll_empty (requests : List Request) :
    (empty.serveAll requests).2.toList =
        (requests.zipIdx.filter fun (r, i) => firstAt requests r i).map (·.1.offense) ∧
      (empty.serveAll requests).1 =
        requests.zipIdx.map (fun (r, i) => r.answer (firstAt requests r i)) ∧
      ∀ before r after, requests = before ++ r :: after →
        firstAt requests r before.length = false →
          ((empty.serveAll before).2.serve r).2 = (empty.serveAll before).2 := by
  refine ⟨toList_serveAll requests, answers_serveAll requests, ?_⟩
  rintro before r after rfl hrepeated
  rw [firstAt_append (Nat.le_refl _)] at hrepeated
  rw [serve_eq]
  refine add_of_reported ?_
  rw [reported_serveAll, hrepeated]
  rfl

/-- A finding that a rule reports at a span where it already added an offense is dropped, although
severity and message differ. -/
theorem serveAll_empty_repeated :
    firstAt [.add ⟨"Test/Rule", .warning, ⟨10, 18, 1, 11⟩, "first"⟩,
        .report "Test/Rule" .error ⟨⟨10, 18, 1, 11⟩, "second"⟩]
      (.report "Test/Rule" .error ⟨⟨10, 18, 1, 11⟩, "second"⟩) 1 = false ∧
    ((empty.serveAll [.add ⟨"Test/Rule", .warning, ⟨10, 18, 1, 11⟩, "first"⟩]).2.serve
        (.report "Test/Rule" .error ⟨⟨10, 18, 1, 11⟩, "second"⟩)).2 =
      (empty.serveAll [.add ⟨"Test/Rule", .warning, ⟨10, 18, 1, 11⟩, "first"⟩]).2 :=
  have hrepeated : firstAt [.add ⟨"Test/Rule", .warning, ⟨10, 18, 1, 11⟩, "first"⟩,
      .report "Test/Rule" .error ⟨⟨10, 18, 1, 11⟩, "second"⟩]
    (.report "Test/Rule" .error ⟨⟨10, 18, 1, 11⟩, "second"⟩) 1 = false := by decide
  ⟨hrepeated, (serveAll_empty _).2.2 [_] _ [] rfl hrepeated⟩

end Offenses

end SpecLint
