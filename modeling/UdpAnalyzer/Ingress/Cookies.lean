import Mathlib.Data.List.Induction
import UdpAnalyzer.Lib.Run
import UdpAnalyzer.Lib.WriteOnce

/-! The cookies of the kprobe fallback (`kprobe_socket_cookie` of `udp_receive.bpf.c`). Any
number of invocations race for the cookie of a socket; each map operation is one step, and
between two of its steps an invocation may wait while others go on. -/

namespace UdpAnalyzer

/-- `struct fallback_socket_key`. -/
structure FallbackSocketKey where
  socketAddress : BitVec 64
  socketInode : BitVec 64
  deriving DecidableEq, Repr

/-- What one invocation draws: two random numbers and the time. -/
structure Draw where
  high : BitVec 32
  low : BitVec 32
  ktimeNs : BitVec 64
  deriving DecidableEq, Repr

/-- `candidate`. -/
def Draw.candidate (draw : Draw) : BitVec 64 :=
  (((draw.high.setWidth 64 <<< 32) ||| draw.low.setWidth 64) ^^^ draw.ktimeNs) ||| 1

/-- Where an invocation of `kprobe_socket_cookie` is: before its first lookup, before the
update with its candidate, before its second lookup, or at its end. -/
inductive CookieInvocation where
  | lookup (key : FallbackSocketKey)
  | update (key : FallbackSocketKey) (candidate : BitVec 64)
  | lookupAgain (key : FallbackSocketKey)
  | returned (key : FallbackSocketKey) (cookie : BitVec 64)
  deriving DecidableEq, Repr

/-- The key an invocation looks up. -/
def CookieInvocation.key : CookieInvocation → FallbackSocketKey
  | .lookup key => key
  | .update key _ => key
  | .lookupAgain key => key
  | .returned key _ => key

/-- `udp_kprobe_cookies`, and the invocations. -/
structure CookieRace (ι : Type) where
  cookies : FallbackSocketKey → Option (BitVec 64) := fun _ => none
  invocations : ι → CookieInvocation

variable {ι : Type} [DecidableEq ι]

namespace CookieRace

/-- One step of an invocation, and what the map is after it. `BPF_NOEXIST` inserts only a key
that is not there. -/
def advance (cookies : FallbackSocketKey → Option (BitVec 64)) (draw : Draw) :
    CookieInvocation → CookieInvocation × (FallbackSocketKey → Option (BitVec 64))
  | .lookup key =>
    match cookies key with
    | some cookie => (.returned key cookie, cookies)
    | none => (.update key draw.candidate, cookies)
  | .update key candidate => (.lookupAgain key, insertNew cookies key candidate)
  | .lookupAgain key => (.returned key ((cookies key).getD 0), cookies)
  | .returned key cookie => (.returned key cookie, cookies)

/-- One invocation makes a step. -/
def step (race : CookieRace ι) (move : ι × Draw) : CookieRace ι where
  cookies := (advance race.cookies move.2 (race.invocations move.1)).2
  invocations := Function.update race.invocations move.1
    (advance race.cookies move.2 (race.invocations move.1)).1

/-- Every invocation is called for a socket, and there is no cookie yet. -/
def start (socket : ι → FallbackSocketKey) : CookieRace ι where
  invocations i := .lookup (socket i)

def run (socket : ι → FallbackSocketKey) (moves : List (ι × Draw)) : CookieRace ι :=
  moves.foldl step (start socket)

end CookieRace

theorem Draw.candidate_ne_zero (draw : Draw) : draw.candidate ≠ 0 := by
  intro h
  have hbit := congrArg (fun x : BitVec 64 => x.getLsbD 0) h
  simp [Draw.candidate] at hbit

/-- What an invocation knows about the map. -/
def CookieInvocation.Knows (cookies : FallbackSocketKey → Option (BitVec 64)) :
    CookieInvocation → Prop
  | .lookup _ => True
  | .update _ candidate => candidate ≠ 0
  | .lookupAgain key => ∃ cookie, cookies key = some cookie
  | .returned key cookie => cookies key = some cookie

/-- What an invocation knows stays true while others go on. -/
theorem CookieInvocation.Knows.mono {cookies cookies' : FallbackSocketKey → Option (BitVec 64)}
    (hkept : Kept cookies cookies') {invocation : CookieInvocation}
    (h : invocation.Knows cookies) : invocation.Knows cookies' := by
  cases invocation with
  | lookup key => trivial
  | update key candidate => exact h
  | lookupAgain key =>
    obtain ⟨cookie, hcookie⟩ := h
    exact ⟨cookie, hkept key cookie hcookie⟩
  | returned key cookie => exact hkept key cookie h

namespace CookieRace

/-- The cookies are not zero, and every invocation is for its socket and knows what is true. -/
structure Sound (socket : ι → FallbackSocketKey) (race : CookieRace ι) : Prop where
  socket : ∀ i, (race.invocations i).key = socket i
  nonzero : ∀ key cookie, race.cookies key = some cookie → cookie ≠ 0
  knows : ∀ i, (race.invocations i).Knows race.cookies

omit [DecidableEq ι] in
theorem start_sound (socket : ι → FallbackSocketKey) : Sound socket (start socket) where
  socket := fun _ => rfl
  nonzero := fun _ _ h => nomatch h
  knows := fun _ => trivial

theorem advance_key (cookies : FallbackSocketKey → Option (BitVec 64)) (draw : Draw)
    (invocation : CookieInvocation) : (advance cookies draw invocation).1.key = invocation.key := by
  cases invocation with
  | lookup key =>
    rw [advance]
    cases cookies key <;> rfl
  | update key candidate => rfl
  | lookupAgain key => rfl
  | returned key cookie => rfl

theorem advance_kept (cookies : FallbackSocketKey → Option (BitVec 64)) (draw : Draw)
    (invocation : CookieInvocation) : Kept cookies (advance cookies draw invocation).2 := by
  cases invocation with
  | lookup key =>
    rw [advance]
    cases cookies key <;> exact kept_refl cookies
  | update key candidate => exact kept_insertNew cookies key candidate
  | lookupAgain key => exact kept_refl cookies
  | returned key cookie => exact kept_refl cookies

/-- The invocation that makes the step knows what it found. -/
theorem advance_knows {cookies : FallbackSocketKey → Option (BitVec 64)} {draw : Draw}
    {invocation : CookieInvocation} (h : invocation.Knows cookies) :
    (advance cookies draw invocation).1.Knows (advance cookies draw invocation).2 := by
  cases invocation with
  | lookup key =>
    rw [advance]
    cases hkey : cookies key with
    | some cookie => exact hkey
    | none => exact draw.candidate_ne_zero
  | update key candidate => exact insertNew_isSome cookies key candidate
  | lookupAgain key =>
    obtain ⟨cookie, hcookie⟩ := h
    show cookies key = some ((cookies key).getD 0)
    rw [hcookie]
    rfl
  | returned key cookie => exact h

theorem advance_nonzero {cookies : FallbackSocketKey → Option (BitVec 64)} {draw : Draw}
    {invocation : CookieInvocation} (hcookies : ∀ key cookie, cookies key = some cookie → cookie ≠ 0)
    (h : invocation.Knows cookies) :
    ∀ key cookie, (advance cookies draw invocation).2 key = some cookie → cookie ≠ 0 := by
  cases invocation with
  | lookup key =>
    rw [advance]
    cases cookies key <;> exact hcookies
  | update key candidate => exact forall_insertNew hcookies h key
  | lookupAgain key => exact hcookies
  | returned key cookie => exact hcookies

theorem step_kept (race : CookieRace ι) (move : ι × Draw) :
    Kept race.cookies (race.step move).cookies :=
  advance_kept race.cookies move.2 (race.invocations move.1)

theorem step_sound {socket : ι → FallbackSocketKey} {race : CookieRace ι}
    (h : race.Sound socket) (move : ι × Draw) : (race.step move).Sound socket where
  socket i := by
    show (Function.update race.invocations move.1 _ i).key = socket i
    by_cases hi : i = move.1
    · rw [hi, Function.update_self, advance_key]
      exact h.socket move.1
    · rw [Function.update_of_ne hi]
      exact h.socket i
  nonzero := advance_nonzero h.nonzero (h.knows move.1)
  knows i := by
    show (Function.update race.invocations move.1 _ i).Knows _
    by_cases hi : i = move.1
    · rw [hi, Function.update_self]
      exact advance_knows (h.knows move.1)
    · rw [Function.update_of_ne hi]
      exact (h.knows i).mono (step_kept race move)

theorem run_append_singleton (socket : ι → FallbackSocketKey) (moves : List (ι × Draw))
    (move : ι × Draw) : run socket (moves ++ [move]) = (run socket moves).step move :=
  List.foldl_concat step (start socket) move moves

theorem run_sound (socket : ι → FallbackSocketKey) (moves : List (ι × Draw)) :
    Sound socket (run socket moves) := by
  induction moves using List.reverseRecOn with
  | nil => exact start_sound socket
  | append_singleton moves move ih =>
    rw [run_append_singleton]
    exact step_sound ih move

theorem run_kept (socket : ι → FallbackSocketKey) (moves later : List (ι × Draw)) :
    Kept (run socket moves).cookies (run socket (moves ++ later)).cookies := by
  induction later using List.reverseRecOn with
  | nil =>
    rw [List.append_nil]
    exact kept_refl _
  | append_singleton later move ih =>
    rw [← List.append_assoc, run_append_singleton]
    exact ih.trans (step_kept _ move)

/-- The cookie an invocation has returned. -/
def result (race : CookieRace ι) (i : ι) : Option (BitVec 64) :=
  match race.invocations i with
  | .returned _ cookie => some cookie
  | _ => none

omit [DecidableEq ι] in
theorem Sound.result_stored {socket : ι → FallbackSocketKey} {race : CookieRace ι}
    (h : race.Sound socket) {i : ι} {cookie : BitVec 64} (hi : race.result i = some cookie) :
    race.cookies (socket i) = some cookie := by
  have hknows := h.knows i
  rw [← h.socket i]
  unfold result at hi
  split at hi
  · next key returned hreturned =>
    rw [hreturned] at hknows ⊢
    rw [← Option.some.inj hi]
    exact hknows
  · cases hi

/-- How many steps an invocation makes at most before it returns. -/
def remaining : CookieInvocation → ℕ
  | .lookup _ => 3
  | .update _ _ => 2
  | .lookupAgain _ => 1
  | .returned _ _ => 0

theorem remaining_advance (cookies : FallbackSocketKey → Option (BitVec 64)) (draw : Draw)
    (invocation : CookieInvocation) :
    remaining (advance cookies draw invocation).1 ≤ remaining invocation - 1 := by
  cases invocation with
  | lookup key =>
    rw [advance]
    cases cookies key with
    | some cookie => exact Nat.zero_le _
    | none => exact Nat.le_refl _
  | update key candidate => exact Nat.le_refl _
  | lookupAgain key => exact Nat.le_refl _
  | returned key cookie => exact Nat.le_refl _

/-- No other invocation can hold one up. -/
theorem remaining_run (socket : ι → FallbackSocketKey) (moves : List (ι × Draw)) (i : ι) :
    remaining ((run socket moves).invocations i) ≤ 3 - (moves.map Prod.fst).count i := by
  induction moves using List.reverseRecOn with
  | nil => exact Nat.le_refl _
  | append_singleton moves move ih =>
    rw [run_append_singleton, List.map_append, List.count_append]
    show remaining (Function.update (run socket moves).invocations move.1 _ i) ≤ _
    by_cases hi : i = move.1
    · have hadvance := remaining_advance (run socket moves).cookies move.2
        ((run socket moves).invocations move.1)
      rw [hi] at ih ⊢
      rw [Function.update_self, List.map_singleton, List.count_singleton_self]
      omega
    · rw [Function.update_of_ne hi, List.map_singleton,
        List.count_eq_zero_of_not_mem (fun hmem => hi (List.mem_singleton.mp hmem)), Nat.add_zero]
      exact ih

omit [DecidableEq ι] in
theorem result_of_remaining {race : CookieRace ι} {i : ι}
    (h : remaining (race.invocations i) = 0) : ∃ cookie, race.result i = some cookie := by
  unfold result
  cases hi : race.invocations i with
  | returned key cookie => exact ⟨cookie, rfl⟩
  | lookup key => rw [hi] at h; cases h
  | update key candidate => rw [hi] at h; cases h
  | lookupAgain key => rw [hi] at h; cases h

/-- For any invocations of any sockets, in every interleaving of their steps and whatever they
draw: each has returned after three steps of its own, those of one socket that have returned
have returned one cookie, which is not zero, and a cookie in the map stays what it is. -/
theorem one_cookie_per_socket (socket : ι → FallbackSocketKey) (moves later : List (ι × Draw)) :
    (∀ i, 3 ≤ (moves.map Prod.fst).count i → ∃ cookie, (run socket moves).result i = some cookie) ∧
    (∀ i j cookie cookie', socket i = socket j → (run socket moves).result i = some cookie →
      (run socket moves).result j = some cookie' → cookie = cookie' ∧ cookie ≠ 0) ∧
    ∀ key cookie, (run socket moves).cookies key = some cookie →
      (run socket (moves ++ later)).cookies key = some cookie := by
  have hsound := run_sound socket moves
  refine ⟨fun i hcount => ?_, fun i j cookie cookie' hsocket hi hj => ?_,
    run_kept socket moves later⟩
  · have hremaining := remaining_run socket moves i
    exact result_of_remaining (by omega)
  · have hstored := hsound.result_stored hi
    have hstored' := hsound.result_stored hj
    rw [hsocket, hstored', Option.some.injEq] at hstored
    exact ⟨hstored.symm, hsound.nonzero _ _ (hsound.result_stored hi)⟩

end CookieRace

/-! Two invocations that both find no cookie: the slower one returns that of the other. -/

example :
    let draws : Fin 2 → Draw := fun i => ⟨i.1, 7, 100⟩
    let race := CookieRace.run (fun _ => ⟨0xFFFF888000001000, 869157⟩)
      (([0, 1, 0, 1, 1, 0] : List (Fin 2)).map fun i => (i, draws i))
    race.result 0 = some 99 ∧ race.result 1 = some 99 := by
  decide

end UdpAnalyzer
