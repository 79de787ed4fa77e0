import Mathlib.Algebra.Order.BigOperators.Group.List
import UdpAnalyzer.Lib.CounterLoop
import UdpAnalyzer.Lib.Run

/-! Counters in a store that may drop an identity at any moment. A posting adds
amounts to the counters of an identity, creating it at zero when it is not there,
or drops it. Whatever is dropped and created again in between, two readings of a
counter never differ by more than what was posted to it, and by exactly that when
the identity was there at the first reading and was not dropped. -/

namespace UdpAnalyzer

inductive Posting (I F : Type*) where
  | add (i : I) (amount : F → ℤ)
  | drop (i : I)

section
variable {I F : Type*} [DecidableEq I]

/-- What a posting adds to one counter. -/
def Posting.amountOf (i : I) (f : F) : Posting I F → ℤ
  | .add j amount => if j = i then amount f else 0
  | .drop _ => 0

theorem Posting.amountOf_add (j : I) (amount : F → ℤ) (i : I) (f : F) :
    (Posting.add j amount).amountOf i f = if j = i then amount f else 0 := rfl

/-- What postings add to one counter. -/
def posted (postings : List (Posting I F)) (i : I) (f : F) : ℤ :=
  (postings.map (Posting.amountOf i f)).sum

/-- No posting takes anything away. -/
def Posting.Nonneg : Posting I F → Prop
  | .add _ amount => ∀ f, 0 ≤ amount f
  | .drop _ => True

namespace Snapshot

/-- A counter, zero when the identity is missing. -/
def level (s : Snapshot I F) (i : I) (f : F) : ℤ := (s i).elim 0 (fun a => a f)

def post (s : Snapshot I F) : Posting I F → Snapshot I F
  | .add i amount => Function.update s i (some fun f => s.level i f + amount f)
  | .drop i => Function.update s i none

theorem post_add (s : Snapshot I F) (i : I) (amount : F → ℤ) :
    s.post (.add i amount) = Function.update s i (some fun f => s.level i f + amount f) := rfl

theorem post_drop (s : Snapshot I F) (i : I) : s.post (.drop i) = Function.update s i none := rfl

omit [DecidableEq I] in
theorem level_of_some {s : Snapshot I F} {i : I} {a : F → ℤ} (h : s i = some a) (f : F) :
    s.level i f = a f := by
  simp only [level, h, Option.elim_some]

omit [DecidableEq I] in
theorem level_of_none {s : Snapshot I F} {i : I} (h : s i = none) (f : F) : s.level i f = 0 := by
  simp only [level, h, Option.elim_none]

theorem level_post_add (s : Snapshot I F) (i : I) (amount : F → ℤ) (j : I) (f : F) :
    (s.post (.add i amount)).level j f = s.level j f + (Posting.add i amount).amountOf j f := by
  rw [post_add, Posting.amountOf_add]
  by_cases h : i = j
  · subst h
    rw [level_of_some (Function.update_self ..), if_pos rfl]
  · rw [if_neg h, add_zero]
    unfold level
    rw [Function.update_of_ne (Ne.symm h)]

theorem level_post_drop (s : Snapshot I F) (i j : I) (f : F) :
    (s.post (.drop i)).level j f = if i = j then 0 else s.level j f := by
  rw [post_drop]
  split_ifs with h
  · subst h
    exact level_of_none (Function.update_self ..) f
  · unfold level
    rw [Function.update_of_ne (Ne.symm h)]

/-- A posting raises a counter by its amount at most. -/
theorem level_post_le {s : Snapshot I F} {i : I} {f : F} (h : 0 ≤ s.level i f) (p : Posting I F) :
    (s.post p).level i f ≤ s.level i f + p.amountOf i f := by
  cases p with
  | add j amount => exact (level_post_add s j amount i f).le
  | drop j =>
    rw [level_post_drop]
    show _ ≤ s.level i f + 0
    split_ifs <;> omega

/-- It raises it by just that unless it drops the identity. -/
theorem level_post_eq (s : Snapshot I F) {p : Posting I F} {i : I} (hp : p ≠ .drop i) (f : F) :
    (s.post p).level i f = s.level i f + p.amountOf i f := by
  cases p with
  | add j amount => exact level_post_add s j amount i f
  | drop j =>
    have hj : j ≠ i := fun h => hp (by rw [h])
    rw [level_post_drop, if_neg hj]
    exact (add_zero _).symm

theorem level_post_nonneg {s : Snapshot I F} {p : Posting I F} {i : I} {f : F}
    (h : 0 ≤ s.level i f) (hp : p.Nonneg) : 0 ≤ (s.post p).level i f := by
  cases p with
  | add j amount =>
    rw [level_post_add]
    have hamount : 0 ≤ (Posting.add j amount).amountOf i f := by
      rw [Posting.amountOf_add]
      split_ifs
      · exact hp f
      · exact le_rfl
    omega
  | drop j =>
    rw [level_post_drop]
    split_ifs
    · exact le_rfl
    · exact h

theorem post_ne_none {s : Snapshot I F} {p : Posting I F} {i : I} (h : s i ≠ none)
    (hp : p ≠ .drop i) : s.post p i ≠ none := by
  cases p with
  | add j amount =>
    rw [post_add]
    by_cases hj : i = j
    · subst hj
      rw [Function.update_self]
      exact Option.some_ne_none _
    · rw [Function.update_of_ne hj]
      exact h
  | drop j =>
    have hj : i ≠ j := fun he => hp (by rw [he])
    rw [post_drop, Function.update_of_ne hj]
    exact h

/-! ### Many postings -/

theorem level_foldl_post_le {postings : List (Posting I F)} (hp : ∀ p ∈ postings, p.Nonneg)
    {s : Snapshot I F} {i : I} {f : F} (h : 0 ≤ s.level i f) :
    0 ≤ (postings.foldl post s).level i f ∧
      (postings.foldl post s).level i f ≤ s.level i f + posted postings i f := by
  induction postings generalizing s with
  | nil => exact ⟨h, (add_zero _).ge⟩
  | cons p rest ih =>
    have hle := level_post_le h p
    have hnonneg := level_post_nonneg h (hp p List.mem_cons_self)
    obtain ⟨hlow, hhigh⟩ := ih (fun q hq => hp q (List.mem_cons_of_mem _ hq)) hnonneg
    refine ⟨hlow, ?_⟩
    have hsum : posted (p :: rest) i f = p.amountOf i f + posted rest i f := List.sum_cons
    rw [List.foldl_cons, hsum]
    omega

theorem foldl_post_eq {postings : List (Posting I F)} {s : Snapshot I F} {i : I}
    (hdrop : .drop i ∉ postings) :
    (∀ f, (postings.foldl post s).level i f = s.level i f + posted postings i f) ∧
      (s i ≠ none → postings.foldl post s i ≠ none) := by
  induction postings generalizing s with
  | nil => exact ⟨fun f => (add_zero _).symm, id⟩
  | cons p rest ih =>
    have hp : p ≠ .drop i := fun h => hdrop (h ▸ List.mem_cons_self)
    obtain ⟨hlevel, hpresent⟩ := ih fun h => hdrop (List.mem_cons_of_mem _ h)
    refine ⟨fun f => ?_, fun h => hpresent (post_ne_none h hp)⟩
    have hsum : posted (p :: rest) i f = p.amountOf i f + posted rest i f := List.sum_cons
    rw [List.foldl_cons, hlevel f, level_post_eq s hp f, hsum, add_assoc]

theorem posted_nonneg {postings : List (Posting I F)} (hp : ∀ p ∈ postings, p.Nonneg) (i : I)
    (f : F) : 0 ≤ posted postings i f := by
  apply List.sum_nonneg
  intro x hx
  obtain ⟨p, hmem, rfl⟩ := List.mem_map.mp hx
  cases p with
  | add j amount =>
    rw [Posting.amountOf_add]
    split_ifs
    · exact hp _ hmem f
    · exact le_rfl
  | drop j => exact le_rfl

omit [DecidableEq I] in
/-- The gain between two readings in terms of the levels. -/
theorem gain_eq_level {s s' : Snapshot I F} {i : I} (h : s i ≠ none) (h' : s' i ≠ none) (f : F) :
    gain s s' i f = max (s'.level i f - s.level i f) 0 := by
  obtain ⟨a, ha⟩ := Option.ne_none_iff_exists'.mp h
  obtain ⟨b, hb⟩ := Option.ne_none_iff_exists'.mp h'
  rw [gain_of_some ha hb, level_of_some ha, level_of_some hb]

theorem gain_foldl_post_le {postings : List (Posting I F)} (hp : ∀ p ∈ postings, p.Nonneg)
    {s : Snapshot I F} {i : I} {f : F} (h : 0 ≤ s.level i f) :
    gain s (postings.foldl post s) i f ≤ posted postings i f := by
  have hposted := posted_nonneg hp i f
  obtain ⟨-, hle⟩ := level_foldl_post_le hp h
  by_cases hs : s i = none
  · rw [gain_of_none hs]
    exact hposted
  · by_cases hs' : postings.foldl post s i = none
    · rw [gain_of_none' hs']
      exact hposted
    · rw [gain_eq_level hs hs']
      exact max_le (by omega) hposted

/-- Nothing is missed of an identity that was there and stayed. -/
theorem gain_foldl_post_eq {postings : List (Posting I F)} (hp : ∀ p ∈ postings, p.Nonneg)
    {s : Snapshot I F} {i : I} (hs : s i ≠ none) (hdrop : .drop i ∉ postings) (f : F) :
    gain s (postings.foldl post s) i f = posted postings i f := by
  obtain ⟨hlevel, hpresent⟩ := foldl_post_eq hdrop
  have hposted := posted_nonneg hp i f
  rw [gain_eq_level hs (hpresent hs), hlevel f, add_sub_cancel_left, max_eq_left hposted]

end Snapshot

/-! ### Machines that keep such a store -/

variable {σ α : Type*}

theorem posted_append (ps qs : List (Posting I F)) (i : I) (f : F) :
    posted (ps ++ qs) i f = posted ps i f + posted qs i f := by
  unfold posted
  rw [List.map_append, List.sum_append]

/-- The postings of a run, each step posting in the state it starts from. -/
def ledger (step : σ → α → σ) (postings : σ → α → List (Posting I F)) :
    σ → List α → List (Posting I F)
  | _, [] => []
  | s, a :: rest => postings s a ++ ledger step postings (step s a) rest

omit [DecidableEq I] in
theorem ledger_append (step : σ → α → σ) (postings : σ → α → List (Posting I F)) (s : σ)
    (as bs : List α) : ledger step postings s (as ++ bs) =
      ledger step postings s as ++ ledger step postings (as.foldl step s) bs := by
  induction as generalizing s with
  | nil => rfl
  | cons a rest ih => rw [List.cons_append, ledger, ledger, ih, List.foldl_cons, List.append_assoc]

/-- A machine whose allowed steps post to its counters posts its ledger. -/
theorem counts_foldl {step : σ → α → σ} {postings : σ → α → List (Posting I F)}
    {counts : σ → Snapshot I F} {ok : σ → α → Prop}
    (hstep : ∀ s a, ok s a → counts (step s a) = (postings s a).foldl Snapshot.post (counts s))
    {s : σ} {as : List α} (h : Along step ok s as) :
    counts (as.foldl step s) = (ledger step postings s as).foldl Snapshot.post (counts s) := by
  induction as generalizing s with
  | nil => rfl
  | cons a rest ih =>
    rw [List.foldl_cons, ih h.2, hstep s a h.1, ledger, List.foldl_append]

omit [DecidableEq I] in
theorem mem_ledger {step : σ → α → σ} {postings : σ → α → List (Posting I F)} {s : σ} {as : List α}
    {p : Posting I F} (h : p ∈ ledger step postings s as) : ∃ s' a, a ∈ as ∧ p ∈ postings s' a := by
  induction as generalizing s with
  | nil => cases h
  | cons a rest ih =>
    rcases List.mem_append.mp h with h | h
    · exact ⟨s, a, List.mem_cons_self, h⟩
    · obtain ⟨s', b, hb, hp⟩ := ih h
      exact ⟨s', b, List.mem_cons_of_mem _ hb, hp⟩

end

end UdpAnalyzer
