import UdpAnalyzer.Storage.JsonLines
import UdpAnalyzer.Storage.Writers

/-! The writer that sends the rows to a ClickHouse server (`writers.py`). Every batch that is not
empty is one request, opened once: from its query and its body a server reads the table and the
rows of the batch. The first call of `urlopen` that does not end well ends the run. What happens
between this call and its end, a redirection for one, is not the writer's: it sees the final
response only. -/

namespace UdpAnalyzer

/-- A request of the writer, of method `POST` and with the content type of JSON lines. -/
structure HttpRequest where
  url : Str
  data : List UInt8

/-- How a call of `urlopen` ends: with the status of the final response, all redirections
followed, or with an exception, the `HTTPError` of another status among them. -/
inductive HttpReply where
  | response (status : ℤ)
  | raised (e : PyExc)

structure ClickHouseHttpWriter where
  url : Str
  table : Str

namespace ClickHouseHttpWriter

/-- `__init__`. -/
def init (url table : Str) : ClickHouseHttpWriter := ⟨url.rdropWhile (· = '/'), table⟩

variable (bucketStartIso : ℤ → Str)

/-- The statement of the query. -/
def insertion (self : ClickHouseHttpWriter) : Str :=
  "INSERT INTO ".toList ++ self.table ++ " FORMAT JSONEachRow".toList

def request (self : ClickHouseHttpWriter) (rows : List UdpSample) : HttpRequest where
  url := self.url ++ "/?".toList ++ urlencode [("query".toList, self.insertion)]
  data := encodeUtf8 (['\n'].intercalate (rows.map fun row => dumpsDict (row.toDict bucketStartIso)))

/-- What `write_samples` makes of the end of its call of `urlopen`. -/
def answer : HttpReply → Except PyExc Unit
  | .raised e => .error e
  | .response status =>
    if status ≥ 300 then .error (.runtimeError s!"ClickHouse insert failed: HTTP {status}")
    else .ok ()

section
-- how the call for a request ends, given the requests opened before it
variable (urlopen : List HttpRequest → HttpRequest → HttpReply)

/-- `write_samples`, with the requests that were opened. -/
def writeSamples (self : ClickHouseHttpWriter) (rows : List UdpSample) (opened : List HttpRequest) :
    Except PyExc Unit × List HttpRequest :=
  if rows = [] then (.ok (), opened)
  else
    let request := self.request bucketStartIso rows
    (answer (urlopen opened request), opened ++ [request])

/-- A call of the writer; `flush` does nothing. -/
def call (self : ClickHouseHttpWriter) : WriterCall → List HttpRequest →
    Except PyExc Unit × List HttpRequest
  | .writeSamples rows, opened => self.writeSamples bucketStartIso urlopen rows opened
  | .flush, opened => (.ok (), opened)

/-- The calls of a run, up to the first that raises. -/
def calls (self : ClickHouseHttpWriter) : List WriterCall → List HttpRequest →
    Except PyExc Unit × List HttpRequest
  | [], opened => (.ok (), opened)
  | c :: rest, opened =>
    match self.call bucketStartIso urlopen c opened with
    | (.error e, opened) => (.error e, opened)
    | (.ok _, opened) => self.calls rest opened

end

end ClickHouseHttpWriter

/-! ### What a server reads -/

/-- The parameters of the query of a request. -/
def HttpRequest.parameters (request : HttpRequest) : Option (List (Str × Str)) :=
  formParameters (after '?' (before '#' request.url))

/-- The rows of its body, one a line. -/
def HttpRequest.rows (floatOf : List Char → JsonFloat) (request : HttpRequest) :
    Option (Except ℕ (List Json)) :=
  (decodeUtf8 request.data).map fun text => readJsonLines floatOf 1 (text.splitOn '\n')

/-- The request inserts the rows into the table: its query has one parameter, and every row of its
body has the columns of its sample. -/
structure Carries (floatOf : List Char → JsonFloat) (bucketStartIso : ℤ → Str) (table : Str)
    (batch : List UdpSample) (request : HttpRequest) : Prop where
  query : request.parameters = some
    [("query".toList, "INSERT INTO ".toList ++ table ++ " FORMAT JSONEachRow".toList)]
  body : ∃ rows, request.rows floatOf = some (.ok rows) ∧
    List.Forall₂ (fun sample row => HasColumns (sample.toDict bucketStartIso) row) batch rows

/-- The batches of a run that are not empty. -/
def batchesOf (calls : List WriterCall) : List (List UdpSample) :=
  (calls.map WriterCall.rows).filter (· ≠ [])

namespace ClickHouseHttpWriter

variable (floatOf : List Char → JsonFloat) (bucketStartIso : ℤ → Str)

theorem request_rows (self : ClickHouseHttpWriter) {rows : List UdpSample} (h : rows ≠ []) :
    (self.request bucketStartIso rows).rows floatOf =
      some (.ok (rows.map fun row => .obj (jsonMembers (row.toDict bucketStartIso)))) := by
  have hlines : List.Forall₂ (IsJsonLine floatOf)
      (rows.map fun row => dumpsDict (row.toDict bucketStartIso))
      (rows.map fun row => .obj (jsonMembers (row.toDict bucketStartIso))) := by
    rw [List.forall₂_map_left_iff, List.forall₂_map_right_iff, List.forall₂_same]
    exact fun row _ => isJsonLine_dumpsDict floatOf (row.toDict bucketStartIso)
  have hunbroken : ∀ line ∈ rows.map fun row => dumpsDict (row.toDict bucketStartIso),
      '\n' ∉ line := by
    intro line hline
    obtain ⟨row, -, hrow⟩ := exists_of_forall₂ hlines hline
    exact hrow.not_mem (by decide)
  have hne : (rows.map fun row => dumpsDict (row.toDict bucketStartIso)) ≠ [] := by
    rwa [ne_eq, List.map_eq_nil_iff]
  have hread := readJsonLines_lines hlines [] (fun _ h => nomatch h) 1
  rw [List.append_nil] at hread
  rw [HttpRequest.rows, request, decodeUtf8_encodeUtf8, Option.map_some,
    List.splitOn_intercalate '\n' hunbroken hne, hread]

theorem request_parameters {url table : Str} (hquery : '?' ∉ url) (hfragment : '#' ∉ url)
    (rows : List UdpSample) : ((init url table).request bucketStartIso rows).parameters =
      some [("query".toList, (init url table).insertion)] := by
  have hsub : ∀ c : Char, c ∉ url → c ∉ (init url table).url := fun c hc hmem =>
    hc ((List.rdropWhile_prefix _ url).subset hmem)
  have hurl : ((init url table).request bucketStartIso rows).url = ((init url table).url ++ ['/']) ++
      '?' :: urlencode [("query".toList, (init url table).insertion)] := by
    simp [request]
  have hslash : ∀ c : Char, c ≠ '/' → c ∉ url → c ∉ (init url table).url ++ ['/'] := by
    intro c hne hc hmem
    rcases List.mem_append.mp hmem with hmem | hmem
    · exact hsub c hc hmem
    · exact hne (List.mem_singleton.mp hmem)
  have hhash : '#' ∉ ((init url table).request bucketStartIso rows).url := by
    rw [hurl, List.mem_append, List.mem_cons, not_or, not_or]
    exact ⟨hslash '#' (by decide) hfragment, by decide,
      not_mem_urlencode (by decide) (by decide) (by decide) _⟩
  have hbefore : before '#' ((init url table).request bucketStartIso rows).url =
      ((init url table).request bucketStartIso rows).url :=
    List.takeWhile_eq_self_iff.mpr fun c hc => decide_eq_true (ne_of_mem_of_not_mem hc hhash)
  rw [HttpRequest.parameters, hbefore, hurl, after_append_cons (hslash '?' (by decide) hquery),
    formParameters_urlencode]

theorem carries_request {url table : Str} (hquery : '?' ∉ url) (hfragment : '#' ∉ url)
    {rows : List UdpSample} (h : rows ≠ []) :
    Carries floatOf bucketStartIso table rows ((init url table).request bucketStartIso rows) where
  query := request_parameters bucketStartIso hquery hfragment rows
  body := by
    refine ⟨_, request_rows floatOf bucketStartIso _ h, ?_⟩
    rw [List.forall₂_map_right_iff]
    exact List.forall₂_same.mpr fun sample _ =>
      hasColumns_jsonMembers (sample.nodup_toDict bucketStartIso)

/-! ### Runs -/

section
variable (urlopen : List HttpRequest → HttpRequest → HttpReply)

/-- The calls for the requests ended well, one after the other. -/
def Answered (opened new : List HttpRequest) : Prop :=
  ∀ front request back, new = front ++ request :: back →
    answer (urlopen (opened ++ front) request) = .ok ()

theorem answered_cons {opened new : List HttpRequest} {request : HttpRequest}
    (hfirst : answer (urlopen opened request) = .ok ())
    (hrest : Answered urlopen (opened ++ [request]) new) : Answered urlopen opened (request :: new) := by
  intro front r back heq
  cases front with
  | nil =>
    obtain ⟨rfl, -⟩ := List.cons.inj heq
    rwa [List.append_nil]
  | cons first front =>
    obtain ⟨rfl, hnew⟩ := List.cons.inj heq
    have h := hrest front r back hnew
    rwa [List.append_assoc, List.singleton_append] at h

/-- What a run has opened: a request for each of its first batches, for all of them if it returned,
and if it did not, up to the one whose reply it raised for. -/
structure Sent (table : Str) (batches : List (List UdpSample)) (opened new : List HttpRequest)
    (result : Except PyExc Unit) : Prop where
  carries : List.Forall₂ (Carries floatOf bucketStartIso table) (batches.take new.length) new
  returned : result = .ok () → new.length = batches.length ∧ Answered urlopen opened new
  raised : ∀ e, result = .error e → ∃ front last, new = front ++ [last] ∧
    Answered urlopen opened front ∧ answer (urlopen (opened ++ front) last) = .error e

variable {urlopen} {floatOf} {bucketStartIso}

theorem sent_nil (table : Str) (opened : List HttpRequest) :
    Sent floatOf bucketStartIso urlopen table [] opened [] (.ok ()) where
  carries := .nil
  returned _ := ⟨rfl, fun front _ _ h => absurd h.symm (List.append_ne_nil_of_right_ne_nil front
    (List.cons_ne_nil _ _))⟩
  raised _ h := nomatch h

theorem Sent.cons {table : Str} {batch : List UdpSample} {batches : List (List UdpSample)}
    {opened new : List HttpRequest} {request : HttpRequest} {result : Except PyExc Unit}
    (hcarries : Carries floatOf bucketStartIso table batch request)
    (hfirst : answer (urlopen opened request) = .ok ())
    (h : Sent floatOf bucketStartIso urlopen table batches (opened ++ [request]) new result) :
    Sent floatOf bucketStartIso urlopen table (batch :: batches) opened (request :: new) result where
  carries := by
    rw [List.length_cons, List.take_succ_cons]
    exact .cons hcarries h.carries
  returned hok := by
    obtain ⟨hlength, hanswered⟩ := h.returned hok
    exact ⟨by rw [List.length_cons, hlength, List.length_cons],
      answered_cons urlopen hfirst hanswered⟩
  raised e he := by
    obtain ⟨front, last, rfl, hanswered, hlast⟩ := h.raised e he
    refine ⟨request :: front, last, rfl, answered_cons urlopen hfirst hanswered, ?_⟩
    rwa [List.append_assoc, List.singleton_append] at hlast

theorem calls_sent {url table : Str} (hquery : '?' ∉ url) (hfragment : '#' ∉ url)
    (cs : List WriterCall) : ∀ opened, ∃ new,
      ((init url table).calls bucketStartIso urlopen cs opened).2 = opened ++ new ∧
      Sent floatOf bucketStartIso urlopen table (batchesOf cs) opened new
        ((init url table).calls bucketStartIso urlopen cs opened).1 := by
  induction cs with
  | nil => exact fun opened => ⟨[], (List.append_nil opened).symm, sent_nil table opened⟩
  | cons c rest ih =>
    intro opened
    cases c with
    | flush => exact ih opened
    | writeSamples rows =>
      by_cases hempty : rows = []
      · subst hempty
        exact ih opened
      have hbatches : batchesOf (.writeSamples rows :: rest) = rows :: batchesOf rest := by
        rw [batchesOf, List.map_cons]
        exact List.filter_cons_of_pos (decide_eq_true hempty)
      have hcarries : Carries floatOf bucketStartIso table rows _ :=
        carries_request floatOf bucketStartIso hquery hfragment hempty
      have hcall : (init url table).call bucketStartIso urlopen (.writeSamples rows) opened =
          (answer (urlopen opened ((init url table).request bucketStartIso rows)),
            opened ++ [(init url table).request bucketStartIso rows]) := if_neg hempty
      rw [calls, hcall, hbatches]
      cases hreply : answer (urlopen opened ((init url table).request bucketStartIso rows)) with
      | error e =>
        refine ⟨[_], rfl, .cons hcarries .nil, (nomatch ·), fun e' he => ⟨[], _, rfl, ?_, ?_⟩⟩
        · exact fun front _ _ h => absurd h.symm (List.append_ne_nil_of_right_ne_nil front
            (List.cons_ne_nil _ _))
        · rw [List.append_nil, hreply]
          exact he
      | ok u =>
        obtain ⟨new, hnew, hsent⟩ := ih (opened ++ [(init url table).request bucketStartIso rows])
        refine ⟨_ :: new, ?_, Sent.cons hcarries hreply hsent⟩
        rw [hnew, List.append_assoc, List.singleton_append]

end

end ClickHouseHttpWriter

end UdpAnalyzer
