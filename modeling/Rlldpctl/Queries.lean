import Rlldpctl.Linearization

/-!
# What a daemon reads

The other direction of the connection: a daemon takes one request after another from what a client has written,
each as long as its header says natively. On the targets on which words are read back it finds what the callers
of the methods asked for, in their order and with nothing between them, when no string has a NUL inside. A NUL
hides the rest of a string, and on the other targets the length of a request is lost.
-/

namespace Rlldpctl
open AsyncClient (sentBy requestLen)
open Utf8 (utf8Bytes)

variable {T : Target}

/-- The requests at the front of `bs`, at most `n`, and what is left. -/
def readRequests (T : Target) : Nat → List UInt8 → List (List UInt8) × List UInt8
  | 0, bs => ([], bs)
  | n + 1, bs =>
    match requestLen T bs with
    | none => ([], bs)
    | some len =>
      let p := readRequests T n (bs.drop len)
      (bs.take len :: p.1, p.2)

/-- What a daemon takes the bytes for, and what of them is no whole request. There are no more requests than
bytes. -/
def readQueries (T : Target) (bs : List UInt8) : List (Query T) × List UInt8 :=
  (readRequests T bs.length bs).map (List.map (Query.parse T)) id

/-- What a method asks for, as a C program takes it. -/
def Method.query (T : Target) : Method → Option (Query T)
  | .call c => some (c.query T)
  | .subscribe => some .subscribe
  | .nextChange => none

/-- What the caller of a method asks for, with all bytes of the strings. -/
def Method.asked (T : Target) : Method → Option (Query T)
  | .call .interfaces => some .interfaces
  | .call (.interface ifname) => some (.interface (utf8Bytes ifname))
  | .call (.setPortDescription ifname description) =>
    some (.setPort (Wire.portSetPod T) (utf8Bytes ifname) (utf8Bytes description))
  | .subscribe => some .subscribe
  | .nextChange => none

/-- No string that the method is given has a NUL inside. -/
def Method.NulFree : Method → Prop
  | .call .interfaces | .subscribe | .nextChange => True
  | .call (.interface ifname) => Wire.NulFree ifname
  | .call (.setPortDescription ifname description) => Wire.NulFree ifname ∧ Wire.NulFree description

/-- A C program sees all of a string exactly when there is no NUL in it. -/
lemma cString_eq_iff {s : String} : Wire.cString (Wire.stringContent s) = utf8Bytes s ↔ Wire.NulFree s := by
  refine ⟨fun h => ?_, Wire.cString_stringContent⟩
  rw [← Wire.terminated_stringContent]
  refine ⟨h, ?_⟩
  rw [h]
  rfl

/-- A method is taken for what its caller asks for exactly when it is given no NUL. -/
lemma Method.query_eq_asked (m : Method) : m.query T = m.asked T ↔ m.NulFree := by
  cases m with
  | subscribe => exact iff_of_true rfl trivial
  | nextChange => exact iff_of_true rfl trivial
  | call c =>
    cases c with
    | interfaces => exact iff_of_true rfl trivial
    | interface ifname =>
      rw [NulFree, ← cString_eq_iff]
      show some (Query.interface _) = some (Query.interface _) ↔ _
      rw [Option.some.injEq, Query.interface.injEq]
    | setPortDescription ifname description =>
      rw [NulFree, ← cString_eq_iff, ← cString_eq_iff]
      show some (Query.setPort _ _ _) = some (Query.setPort _ _ _) ↔ _
      rw [Option.some.injEq, Query.setPort.injEq]
      exact and_iff_right rfl

/-- Both ask for something or for nothing. -/
lemma Method.query_isSome (m : Method) : (m.query T).isSome = (m.asked T).isSome := by
  cases m with
  | subscribe => rfl
  | nextChange => rfl
  | call c => cases c <;> rfl

/-- The methods are taken for what their caller asks for exactly when they are given no NUL. -/
lemma Method.queries_eq_asked (ms : List Method) :
    ms.filterMap (Method.query T) = ms.filterMap (Method.asked T) ↔ ∀ m ∈ ms, m.NulFree := by
  induction ms with
  | nil => exact iff_of_true rfl (List.forall_mem_nil _)
  | cons m ms ih =>
    have hsome := m.query_isSome (T := T)
    rw [List.forall_mem_cons, ← ih, ← m.query_eq_asked (T := T)]
    cases hquery : m.query T with
    | none =>
      rw [hquery, Option.isSome_none] at hsome
      have hasked : m.asked T = none :=
        Option.isNone_iff_eq_none.mp (Option.isSome_eq_false_iff.mp hsome.symm)
      rw [List.filterMap_cons_none hquery, List.filterMap_cons_none hasked, hasked]
      exact (and_iff_right rfl).symm
    | some q =>
      rw [hquery, Option.isSome_some] at hsome
      obtain ⟨q', hasked⟩ := Option.isSome_iff_exists.mp hsome.symm
      rw [List.filterMap_cons_some hquery, List.filterMap_cons_some hasked, hasked, List.cons.injEq,
        Option.some.injEq]

section
variable (hT : ReadsWords T)
include hT

/-- A request is taken for what its method asks for. -/
lemma Method.query_eq {m : Method} (hfit : (m.request T).length ≤ T.isizeMax) :
    m.query T = if m.request T = [] then none else some (Query.parse T (m.request T)) := by
  cases m with
  | call c =>
    refine Eq.trans ?_ (if_neg (AsyncClient.sentBy_ne_nil c)).symm
    exact congrArg some (Query.parse_sentBy hT hfit).symm
  | subscribe =>
    rw [if_neg subscribe_ne_nil]
    exact congrArg some (Query.parse_subscribe hT).symm
  | nextChange => rfl

/-- A daemon reads the requests that were written, and takes them for what was asked for. -/
lemma readRequests_written {ms : List Method} (hfit : ∀ m ∈ ms, (m.request T).length ≤ T.isizeMax)
    {n : Nat} (hn : (ms.flatMap (Method.request T)).length ≤ n) :
    (readRequests T n (ms.flatMap (Method.request T))).map (List.map (Query.parse T)) id =
      (ms.filterMap (Method.query T), []) := by
  induction ms generalizing n with
  | nil =>
    cases n with
    | zero => rfl
    | succ n =>
      rw [List.flatMap_nil, readRequests, AsyncClient.requestLen_nil]
      rfl
  | cons m ms ih =>
    obtain ⟨hm, hfit⟩ := List.forall_mem_cons.mp hfit
    have hquery := Method.query_eq hT hm
    rw [List.flatMap_cons] at hn ⊢
    by_cases hne : m.request T = []
    · -- `next_change` writes nothing and asks for nothing
      rw [if_pos hne] at hquery
      rw [hne, List.nil_append] at hn ⊢
      rw [List.filterMap_cons_none hquery]
      exact ih hfit hn
    · -- the request is a frame, so it is found whole whatever was written after it
      rw [if_neg hne] at hquery
      obtain ⟨f, hf⟩ := Method.request_frame hT hm hne
      have hlen := f.requestLen (ms.flatMap (Method.request T))
      rw [← hf] at hlen
      have hpos := List.length_pos_iff.mpr hne
      rw [List.length_append] at hn
      cases n with
      | zero => omega
      | succ n =>
        have hrest := ih hfit (n := n) (by omega)
        rw [readRequests, hlen, List.filterMap_cons_some hquery]
        dsimp only
        rw [List.take_left, List.drop_left]
        obtain ⟨hqueries, hleft⟩ := Prod.mk.inj hrest
        exact Prod.ext (congrArg (Query.parse T (m.request T) :: ·) hqueries) hleft

end

/-- On other targets the length of a request is lost, and its payload is left over. -/
lemma readQueries_lost (hT : ¬ ReadsWords T) :
    (Method.request T (.call (.interface "a"))).length ≤ T.isizeMax ∧
      (readQueries T (Method.request T (.call (.interface "a")))).2 ≠ [] := by
  obtain ⟨hsize, horder⟩ := not_readsWords hT
  obtain ⟨e, rfl | rfl | rfl⟩ := T.cases
  · cases hsize
  · obtain rfl : e = .big := horder
    decide +kernel
  · obtain rfl : e = .big := horder
    decide +kernel

/-- A daemon takes what the methods have written for what their caller asks for, one query after another and
to the end. The async client writes the same. -/
def ReadsAsked (T : Target) (ms : List Method) (input : List UInt8) : Prop :=
  readQueries T (runIo T ms ⟨input, []⟩).2.output = (ms.filterMap (Method.asked T), []) ∧
    readQueries T ((runFut T ms).run input).written = (ms.filterMap (Method.asked T), [])

/-- Where words are read back only a NUL in a string keeps the daemon from seeing what is asked for. -/
lemma readsAsked_iff (hT : ReadsWords T) {ms : List Method} (input : List UInt8)
    (hfit : ∀ m ∈ ms, (m.request T).length ≤ T.isizeMax) :
    ReadsAsked T ms input ↔ ∀ m ∈ ms, m.NulFree := by
  have hread : readQueries T (ms.flatMap (Method.request T)) = (ms.filterMap (Method.query T), []) :=
    readRequests_written hT hfit le_rfl
  rw [ReadsAsked, runIo_segments, runFut_segments]
  show readQueries T (ms.flatMap (Method.request T)) = _ ∧
    readQueries T (ms.flatMap (Method.request T)) = _ ↔ _
  rw [hread, and_self, Prod.mk.injEq, Method.queries_eq_asked]
  exact and_iff_left rfl

/-- Whatever is read meanwhile: a daemon reads from what the methods of a client write exactly what their caller
asks for, for all methods that are given strings without NULs, if and only if the target reads its words back.
There it does so for no others. -/
theorem daemon_reads_requests (T : Target) :
    (ReadsWords T ↔ ∀ (ms : List Method) (input : List UInt8),
      (∀ m ∈ ms, (m.request T).length ≤ T.isizeMax) → (∀ m ∈ ms, m.NulFree) → ReadsAsked T ms input) ∧
    (ReadsWords T → ∀ (ms : List Method) (input : List UInt8),
      (∀ m ∈ ms, (m.request T).length ≤ T.isizeMax) →
        (ReadsAsked T ms input ↔ ∀ m ∈ ms, m.NulFree)) := by
  refine ⟨⟨fun hT ms input hfit => (readsAsked_iff hT input hfit).mpr, fun hall => ?_⟩,
    fun hT ms input hfit => readsAsked_iff hT input hfit⟩
  by_contra hT
  obtain ⟨hfit, hleft⟩ := readQueries_lost hT
  have hfree : Method.NulFree (.call (.interface "a")) := by
    show Wire.NulFree "a"
    decide +kernel
  obtain ⟨hread, -⟩ := hall [.call (.interface "a")] [] (List.forall_mem_singleton.mpr hfit)
    (List.forall_mem_singleton.mpr hfree)
  rw [runIo_segments] at hread
  change readQueries T (Method.request T (.call (.interface "a")) ++ []) = _ at hread
  rw [List.append_nil] at hread
  exact hleft (congrArg Prod.snd hread)

end Rlldpctl
