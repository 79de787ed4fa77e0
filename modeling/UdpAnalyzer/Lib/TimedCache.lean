import Mathlib.Data.Set.Basic

/-! A value that is kept for a while. Whoever asks for it brings a reading of the clock and a way
to fetch the value anew; the value is fetched when the kept one is older than the cache allows. -/

namespace UdpAnalyzer

/-- A value and the time since when it is kept. -/
structure TimedCache (V : Type*) where
  value : V
  since : ℤ

/-- A reading of the clock, and what fetching the value gives. -/
structure CacheRequest (V ε : Type*) where
  now : ℤ
  fetch : Except ε V

namespace TimedCache

variable {V ε : Type*} {initial : V} {requests later : Set (CacheRequest V ε)} {ttl : ℤ}
  {c : TimedCache V} {r : CacheRequest V ε}

/-- The value, fetched anew when it is older than `ttl`. A fetch that fails changes nothing. -/
def ask (ttl : ℤ) (c : TimedCache V) (r : CacheRequest V ε) : Except ε V × TimedCache V :=
  if r.now - c.since > ttl then
    match r.fetch with
    | .error e => (.error e, c)
    | .ok v => (.ok v, ⟨v, r.now⟩)
  else (.ok c.value, c)

/-- The value is the initial one, or one of the requests has fetched it at the time it is kept
since. -/
def FetchedBy (initial : V) (requests : Set (CacheRequest V ε)) (c : TimedCache V) : Prop :=
  c.value = initial ∨ ∃ r ∈ requests, r.fetch = .ok c.value ∧ r.now = c.since

theorem FetchedBy.mono (h : c.FetchedBy initial requests) (hsub : requests ⊆ later) :
    c.FetchedBy initial later :=
  h.imp_right fun ⟨r, hr, hfetch⟩ => ⟨r, hsub hr, hfetch⟩

theorem FetchedBy.ask (h : c.FetchedBy initial requests) (hr : r ∈ requests) :
    (c.ask ttl r).2.FetchedBy initial requests := by
  unfold TimedCache.ask
  split_ifs
  · cases hfetch : r.fetch with
    | error e => exact h
    | ok v => exact .inr ⟨r, hr, hfetch, rfl⟩
  · exact h

/-- What is answered is the initial value, or was fetched by a request and is no older than the
cache allows. -/
theorem FetchedBy.answer (httl : 0 ≤ ttl) (h : c.FetchedBy initial requests) (hr : r ∈ requests)
    {v : V} (hv : (c.ask ttl r).1 = .ok v) :
    v = initial ∨ ∃ r' ∈ requests, r'.fetch = .ok v ∧ r.now - r'.now ≤ ttl := by
  unfold TimedCache.ask at hv
  split_ifs at hv with hold
  · cases hfetch : r.fetch with
    | error e =>
      rw [hfetch] at hv
      cases hv
    | ok w =>
      rw [hfetch] at hv
      cases hv
      exact .inr ⟨r, hr, hfetch, by omega⟩
  · cases hv
    rcases h with hinitial | ⟨r', hr', hfetch, hsince⟩
    · exact .inl hinitial
    · exact .inr ⟨r', hr', hfetch, by omega⟩

end TimedCache

end UdpAnalyzer
