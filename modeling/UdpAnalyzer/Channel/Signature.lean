import UdpAnalyzer.Ingress.Receivers
import UdpAnalyzer.Lib.Search

/-! The check of the kernel's signature (`kernel_tcp_recvmsg_has_nonblock` of `tcp_channel.py`,
`kernel_udp_recvmsg_has_noblock` of `udp_channel.py`): two searches in the raw dump of the types
of the kernel, the first for the function, the second for the prototype it points to. -/

namespace UdpAnalyzer

/-! ### The check -/

/-- What became of `bpftool btf dump`: it could not be run, or it ended. -/
inductive BtfDumpRun where
  | failed
  | completed (returncode : ℤ) (stdout : Str)

/-- `FUNC 'func' type_id=`. -/
def funcLiteral (func : Str) : Str :=
  "FUNC ".toList ++ '\'' :: func ++ '\'' :: " type_id=".toList

/-- `FUNC 'func' type_id=(\d+)`. -/
def funcPattern (func : Str) (_lineStart : Bool) (text : Str) : Option Str :=
  if funcLiteral func <+: text then
    let digits := (text.drop (funcLiteral func).length).takeWhile Char.isDigit
    if digits = [] then none else some digits
  else none

/-- `(?:\n\t[^\n]*)*`, where a line ends. -/
def indentedLines : Str → Str
  | '\n' :: '\t' :: rest => '\n' :: '\t' :: indentedLines rest
  | '\n' :: _ => []
  | c :: rest => c :: indentedLines rest
  | [] => []

/-- `[id] FUNC_PROTO`. -/
def protoLiteral (id : Str) : Str := '[' :: id ++ ']' :: " FUNC_PROTO".toList

/-- `^\[id\] FUNC_PROTO[^\n]*((?:\n\t[^\n]*)*)`. -/
def protoPattern (id : Str) (lineStart : Bool) (text : Str) : Option Str :=
  if lineStart ∧ protoLiteral id <+: text then
    some (indentedLines ((text.drop (protoLiteral id).length).dropWhile (· ≠ '\n')))
  else none

/-- Whether the prototype of the function has the parameter, by the text of a dump. -/
def textHasParam (func param text : Str) : Option Bool :=
  match search (funcPattern func) text with
  | none => none
  | some id =>
    match search (protoPattern id) text with
    | none => none
    | some params => some (decide ('\'' :: param ++ ['\''] <:+: params))

/-- The text is the one given, or what `bpftool` prints if there is none. -/
def kernelFuncHasParam (func param : Str) (btfText : Option Str) (run : BtfDumpRun) :
    Option Bool :=
  match btfText with
  | some text => textHasParam func param text
  | none =>
    match run with
    | .failed => none
    | .completed returncode stdout =>
      if returncode ≠ 0 ∨ stdout = [] then none else textHasParam func param stdout

def kernelTcpRecvmsgHasNonblock : Option Str → BtfDumpRun → Option Bool :=
  kernelFuncHasParam "tcp_recvmsg".toList "nonblock".toList

def kernelUdpRecvmsgHasNoblock : Option Str → BtfDumpRun → Option Bool :=
  kernelFuncHasParam "udp_recvmsg".toList "noblock".toList

/-! ### The dump -/

/-- The rest of a line after a name: nothing, or a blank and what is printed after it. -/
structure BtfRest where
  text : Str := []
  blank : text = [] ∨ text.head? = some ' ' := by first | exact .inl rfl | exact .inr rfl
  unquoted : '\'' ∉ text := by decide
  unbroken : '\n' ∉ text := by decide

/-- The name of an entry or of a member. -/
structure BtfName where
  text : Str
  unquoted : '\'' ∉ text := by decide
  unbroken : '\n' ∉ text := by decide

/-- The kinds of entries. -/
inductive BtfKind where
  | unknown | int | ptr | array | struct | union | enum | fwd | typedef | volatile | const
  | restrict | func (typeId : ℕ) | funcProto | var | datasec | float | declTag | typeTag | enum64
  deriving DecidableEq, Repr

def BtfKind.text : BtfKind → String
  | .unknown => "UNKNOWN"
  | .int => "INT"
  | .ptr => "PTR"
  | .array => "ARRAY"
  | .struct => "STRUCT"
  | .union => "UNION"
  | .enum => "ENUM"
  | .fwd => "FWD"
  | .typedef => "TYPEDEF"
  | .volatile => "VOLATILE"
  | .const => "CONST"
  | .restrict => "RESTRICT"
  | .func _ => "FUNC"
  | .funcProto => "FUNC_PROTO"
  | .var => "VAR"
  | .datasec => "DATASEC"
  | .float => "FLOAT"
  | .declTag => "DECL_TAG"
  | .typeTag => "TYPE_TAG"
  | .enum64 => "ENUM64"

/-- What is printed right after the name: a function says which prototype it has. -/
def BtfKind.reference : BtfKind → Str
  | .func typeId => " type_id=".toList ++ decimal typeId
  | _ => []

theorem BtfKind.reference_func (typeId : ℕ) :
    (BtfKind.func typeId).reference = " type_id=".toList ++ decimal typeId := by
  unfold reference
  with_reducible rfl

/-- A member; a parameter of a prototype is one. -/
structure BtfMember where
  name : BtfName
  rest : BtfRest

structure BtfEntry where
  id : ℕ
  kind : BtfKind
  name : BtfName
  rest : BtfRest
  members : List BtfMember := []

def BtfMember.line (m : BtfMember) : Str := '\t' :: '\'' :: m.name.text ++ '\'' :: m.rest.text

def BtfEntry.header (e : BtfEntry) : Str :=
  '[' :: decimal e.id ++ ']' :: ' ' :: e.kind.text.toList ++ [' '] ++ '\'' :: e.name.text ++
    '\'' :: (e.kind.reference ++ e.rest.text)

def BtfEntry.lines (e : BtfEntry) : List Str := e.header :: e.members.map BtfMember.line

/-- The entry is the function of that name. -/
def BtfEntry.IsFunc (e : BtfEntry) (func : Str) (typeId : ℕ) : Prop :=
  e.kind = .func typeId ∧ e.name.text = func

def BtfEntry.HasParam (e : BtfEntry) (param : Str) : Prop := ∃ m ∈ e.members, m.name.text = param

/-- A dump: the ids are distinct, and at most one function has the wanted name. -/
structure BtfDump (func : Str) where
  entries : List BtfEntry
  endsLine : Bool := true
  ids_nodup : (entries.map BtfEntry.id).Nodup
  one_func : ∀ e ∈ entries, ∀ e' ∈ entries, ∀ n n',
    e.IsFunc func n → e'.IsFunc func n' → e = e'

/-- A line feed at the end begins one more line, an empty one. -/
def BtfDump.lastLine {func : Str} (d : BtfDump func) : List Str := if d.endsLine then [[]] else []

def BtfDump.lines {func : Str} (d : BtfDump func) : List Str :=
  d.entries.flatMap BtfEntry.lines ++ d.lastLine

def BtfDump.text {func : Str} (d : BtfDump func) : Str := textOfLines d.lines

/-- The function points to that prototype. -/
def BtfDump.PointsTo {func : Str} (d : BtfDump func) (proto : BtfEntry) : Prop :=
  (∃ e ∈ d.entries, e.IsFunc func proto.id) ∧ proto ∈ d.entries ∧ proto.kind = .funcProto

/-! ### The lines of a dump -/

theorem decimal_unquoted (n : ℕ) : '\'' ∉ decimal n := not_mem_decimal rfl n

theorem decimal_unbroken (n : ℕ) : '\n' ∉ decimal n := not_mem_decimal rfl n

/-- What stands before the name of an entry. -/
def BtfEntry.before (e : BtfEntry) : Str :=
  '[' :: decimal e.id ++ ']' :: ' ' :: e.kind.text.toList ++ [' ']

theorem BtfEntry.header_eq (e : BtfEntry) : e.header =
    e.before ++ '\'' :: e.name.text ++ '\'' :: (e.kind.reference ++ e.rest.text) := rfl

theorem BtfKind.text_plain (k : BtfKind) : '\'' ∉ k.text.toList ∧ '\n' ∉ k.text.toList := by
  cases k with
  | func typeId =>
    show '\'' ∉ "FUNC".toList ∧ '\n' ∉ "FUNC".toList
    exact ⟨by decide, by decide⟩
  | _ => exact ⟨by decide, by decide⟩

theorem BtfKind.reference_plain (k : BtfKind) : '\'' ∉ k.reference ∧ '\n' ∉ k.reference := by
  cases k with
  | func typeId =>
    show '\'' ∉ " type_id=".toList ++ decimal typeId ∧ '\n' ∉ " type_id=".toList ++ decimal typeId
    rw [List.mem_append, List.mem_append, not_or, not_or]
    exact ⟨⟨by decide, decimal_unquoted typeId⟩, by decide, decimal_unbroken typeId⟩
  | _ => exact ⟨List.not_mem_nil, List.not_mem_nil⟩

theorem BtfEntry.before_plain (e : BtfEntry) : '\'' ∉ e.before ∧ '\n' ∉ e.before := by
  simp [before, decimal_unquoted, decimal_unbroken, e.kind.text_plain.1, e.kind.text_plain.2]

theorem BtfEntry.after_unquoted (e : BtfEntry) : '\'' ∉ e.kind.reference ++ e.rest.text := by
  simp [e.kind.reference_plain.1, e.rest.unquoted]

theorem BtfEntry.header_unbroken (e : BtfEntry) : '\n' ∉ e.header := by
  simp [header_eq, e.before_plain.2, e.name.unbroken, e.kind.reference_plain.2, e.rest.unbroken]

theorem BtfMember.line_unbroken (m : BtfMember) : '\n' ∉ m.line := by
  simp [line, m.name.unbroken, m.rest.unbroken]

theorem BtfEntry.lines_unbroken (e : BtfEntry) : ∀ line ∈ e.lines, '\n' ∉ line := by
  rw [lines, List.forall_mem_cons]
  refine ⟨e.header_unbroken, fun line hline => ?_⟩
  obtain ⟨m, -, rfl⟩ := List.mem_map.mp hline
  exact m.line_unbroken

theorem BtfDump.mem_lastLine {func : Str} {d : BtfDump func} {line : Str}
    (h : line ∈ d.lastLine) : line = [] := by
  unfold lastLine at h
  split_ifs at h
  · exact List.mem_singleton.mp h
  · exact absurd h List.not_mem_nil

theorem BtfDump.lines_unbroken {func : Str} (d : BtfDump func) :
    ∀ line ∈ d.lines, '\n' ∉ line := by
  intro line hline
  rcases List.mem_append.mp hline with hentry | hlast
  · obtain ⟨e, -, he⟩ := List.mem_flatMap.mp hentry
    exact e.lines_unbroken line he
  · rw [mem_lastLine hlast]
    exact List.not_mem_nil

/-- The lines after those of an entry begin with one that is not indented. -/
theorem BtfDump.head_after {func : Str} (d : BtfDump func) (after : List BtfEntry) :
    ∀ next ∈ (after.flatMap BtfEntry.lines ++ d.lastLine).head?, next.head? ≠ some '\t' := by
  cases after with
  | nil =>
    intro next hnext
    rw [List.flatMap_nil, List.nil_append] at hnext
    rw [mem_lastLine (List.mem_of_mem_head? hnext)]
    exact nofun
  | cons e after =>
    intro next hnext
    rw [← Option.some.inj hnext]
    exact fun h => absurd (Option.some.inj h) (by decide)

/-- A line of a dump that is not empty is that of an entry or of a member. -/
theorem BtfDump.lines_split {func : Str} (d : BtfDump func) {front back : List Str} {line : Str}
    (h : d.lines = front ++ line :: back) (hne : line ≠ []) :
    ∃ e ∈ d.entries, (∃ m ∈ e.members, line = m.line) ∨
      line = e.header ∧ ∃ rest, back = e.members.map BtfMember.line ++ rest ∧
        ∀ next ∈ rest.head?, next.head? ≠ some '\t' := by
  obtain ⟨back', hentries, rfl⟩ := append_split h fun hlast => hne (mem_lastLine hlast)
  obtain ⟨before, e, after, inner, rest, hsplit, hlines, rfl⟩ := flatMap_split hentries
  have he : e ∈ d.entries := by
    rw [hsplit]
    exact List.mem_append_right _ List.mem_cons_self
  refine ⟨e, he, ?_⟩
  cases inner with
  | nil =>
    obtain ⟨hheader, hmembers⟩ := List.cons.inj hlines
    refine .inr ⟨hheader.symm, after.flatMap BtfEntry.lines ++ d.lastLine, ?_, d.head_after after⟩
    rw [List.append_assoc, hmembers]
  | cons header inner =>
    have hmem : line ∈ e.members.map BtfMember.line := by
      rw [(List.cons.inj hlines).2]
      exact List.mem_append_right _ List.mem_cons_self
    obtain ⟨m, hm, rfl⟩ := List.mem_map.mp hmem
    exact .inl ⟨m, hm, rfl⟩

/-- Every entry has its place in a dump. -/
theorem BtfDump.lines_of_mem {func : Str} (d : BtfDump func) {e : BtfEntry} (he : e ∈ d.entries) :
    ∃ front rest, d.lines = front ++ e.header :: (e.members.map BtfMember.line ++ rest) ∧
      ∀ next ∈ rest.head?, next.head? ≠ some '\t' := by
  obtain ⟨before, after, hsplit⟩ := List.append_of_mem he
  refine ⟨before.flatMap BtfEntry.lines, after.flatMap BtfEntry.lines ++ d.lastLine, ?_,
    d.head_after after⟩
  rw [lines, hsplit, List.flatMap_append, List.flatMap_cons, BtfEntry.lines, List.append_assoc,
    List.cons_append, List.cons_append, List.append_assoc]

/-! ### The function -/

theorem isDigit_of_mem_decimal {n : ℕ} {c : Char} (h : c ∈ decimal n) : c.isDigit = true :=
  Nat.isDigit_of_mem_toDigits (by decide) (by decide) h

/-- The number ends where the rest of the line begins. -/
theorem takeWhile_decimal (n : ℕ) (r : BtfRest) (back : List Str) :
    (decimal n ++ (r.text ++ following back)).takeWhile Char.isDigit = decimal n := by
  have hstop : (r.text ++ following back).takeWhile Char.isDigit = [] := by
    rcases r.blank with hnil | hhead
    · rw [hnil, List.nil_append]
      cases back with
      | nil => rfl
      | cons line back =>
        rw [following_cons]
        exact List.takeWhile_cons_of_neg (by decide)
    · obtain ⟨rest, hrest⟩ := List.head?_eq_some_iff.mp hhead
      rw [hrest, List.cons_append]
      exact List.takeWhile_cons_of_neg (by decide)
  rw [List.takeWhile_append_of_pos fun c hc => isDigit_of_mem_decimal hc, hstop, List.append_nil]

theorem funcPattern_literal (func : Str) (lineStart : Bool) (n : ℕ) (r : BtfRest)
    (back : List Str) :
    funcPattern func lineStart (funcLiteral func ++ (decimal n ++ r.text) ++ following back) =
      some (decimal n) := by
  unfold funcPattern
  rw [List.append_assoc, List.append_assoc, if_pos (List.prefix_append _ _)]
  simp only [List.drop_left, takeWhile_decimal]
  exact if_neg Nat.toDigits_ne_nil

/-- The pattern matches at the literal only. -/
theorem literal_of_funcPattern {func : Str} {lineStart : Bool} {text found : Str}
    (h : funcPattern func lineStart text = some found) : funcLiteral func <+: text := by
  by_contra hnot
  unfold funcPattern at h
  rw [if_neg hnot] at h
  cases h

theorem withinLine_funcPattern (func : Str) : WithinLine (funcPattern func) where
  nil lineStart := by
    cases h : funcPattern func lineStart [] with
    | none => rfl
    | some found => exact absurd (List.prefix_nil.mp (literal_of_funcPattern h)) (List.cons_ne_nil _ _)
  newline lineStart rest := by
    cases h : funcPattern func lineStart ('\n' :: rest) with
    | none => rfl
    | some found =>
      have hliteral := literal_of_funcPattern h
      exact absurd (List.cons_prefix_cons.mp hliteral).1 (by decide)

theorem funcLiteral_ne_nil (func t : Str) : funcLiteral func ++ t ≠ [] := List.cons_ne_nil _ _

theorem funcLiteral_unbroken {func : Str} (hfunc : '\n' ∉ func) : '\n' ∉ funcLiteral func := by
  intro hmem
  rcases List.mem_append.mp hmem with hfront | hback
  · rcases List.mem_append.mp hfront with hword | hname
    · exact absurd hword (by decide)
    · exact List.not_mem_cons_of_ne_of_not_mem (by decide) hfunc hname
  · exact absurd hback (by decide)

theorem funcLiteral_append (func t : Str) : funcLiteral func ++ t =
    "FUNC ".toList ++ '\'' :: func ++ '\'' :: (" type_id=".toList ++ t) :=
  List.append_assoc ("FUNC ".toList ++ '\'' :: func) ('\'' :: " type_id=".toList) t

/-- Only the kind of a function ends the way the literal begins. -/
theorem BtfKind.func_of_suffix {k : BtfKind} (h : "FUNC ".toList <:+ ']' :: ' ' :: k.text.toList ++ [' ']) :
    ∃ typeId, k = .func typeId := by
  cases k with
  | func typeId => exact ⟨typeId, rfl⟩
  | _ => exact absurd h (by decide)

theorem BtfKind.length_text (k : BtfKind) : 2 ≤ k.text.toList.length := by
  cases k with
  | func typeId =>
    show 2 ≤ "FUNC".toList.length
    decide
  | _ => decide

theorem BtfEntry.func_of_before {e : BtfEntry} {u : Str} (h : e.before = u ++ "FUNC ".toList) :
    ∃ typeId, e.kind = .func typeId := by
  have hbefore : e.before = ('[' :: decimal e.id) ++ (']' :: ' ' :: e.kind.text.toList ++ [' ']) := by
    simp only [before, List.append_assoc, List.cons_append]
  have hword : "FUNC ".toList <:+ e.before := by
    rw [h]
    exact List.suffix_append u _
  have htail : ']' :: ' ' :: e.kind.text.toList ++ [' '] <:+ e.before := by
    rw [hbefore]
    exact List.suffix_append _ _
  apply BtfKind.func_of_suffix
  refine List.suffix_of_suffix_length_le hword htail ?_
  · have hlength := e.kind.length_text
    have hfive : "FUNC ".toList.length = 5 := rfl
    rw [List.length_append, List.length_cons, List.length_cons, List.length_singleton, hfive]
    omega

/-- The line of the function of that name. -/
theorem BtfEntry.header_of_func {e : BtfEntry} {func : Str} {typeId : ℕ} (h : e.IsFunc func typeId) :
    e.header = ('[' :: decimal e.id ++ [']', ' ']) ++
      (funcLiteral func ++ (decimal typeId ++ e.rest.text)) := by
  obtain ⟨hkind, hname⟩ := h
  have htext : (BtfKind.func typeId).text.toList ++ [' '] = "FUNC ".toList := by
    show "FUNC".toList ++ [' '] = "FUNC ".toList
    decide
  rw [funcLiteral_append, ← htext, header, hkind, hname, BtfKind.reference_func]
  simp only [List.append_assoc, List.cons_append, List.nil_append]

/-- No other entry has the literal in its line. -/
theorem BtfEntry.func_of_header {e : BtfEntry} {func u t : Str} (hfunc : '\'' ∉ func)
    (h : e.header = u ++ (funcLiteral func ++ t)) :
    ∃ typeId, e.IsFunc func typeId ∧ t = decimal typeId ++ e.rest.text := by
  rw [funcLiteral_append, e.header_eq] at h
  have hquoted := @quoted_inj '\'' e.before e.name.text (e.kind.reference ++ e.rest.text) u
    "FUNC ".toList func (" type_id=".toList ++ t) e.before_plain.1 e.name.unquoted
    e.after_unquoted hfunc h
  obtain ⟨hbefore, hname, hafter⟩ := hquoted
  obtain ⟨typeId, hkind⟩ := func_of_before hbefore
  refine ⟨typeId, ⟨hkind, hname⟩, ?_⟩
  rw [hkind, BtfKind.reference_func, List.append_assoc] at hafter
  exact (List.append_cancel_left hafter).symm

theorem BtfMember.line_ne_func {m : BtfMember} {func u t : Str} (hfunc : '\'' ∉ func) :
    m.line ≠ u ++ (funcLiteral func ++ t) := by
  intro h
  rw [funcLiteral_append] at h
  -- nothing but a tab stands before the name of a member
  have hquoted := @quoted_inj '\'' ['\t'] m.name.text m.rest.text u "FUNC ".toList func
    (" type_id=".toList ++ t) (by decide) m.name.unquoted m.rest.unquoted hfunc h
  have hlength := congrArg List.length hquoted.1
  have hfive : "FUNC ".toList.length = 5 := rfl
  rw [List.length_append, List.length_singleton, hfive] at hlength
  omega

/-- The function of that name is found, and the id of the prototype it points to. -/
theorem occurs_funcPattern {func : Str} (d : BtfDump func) (hfunc : '\'' ∉ func)
    (hline : '\n' ∉ func) {found : Str} :
    Occurs (funcPattern func) true d.text found ↔
      ∃ e ∈ d.entries, ∃ typeId, e.IsFunc func typeId ∧ found = decimal typeId := by
  rw [BtfDump.text, occurs_textOfLines (withinLine_funcPattern func) d.lines_unbroken]
  constructor
  · rintro ⟨front, u, v, back, hlines, -, hfound⟩
    have hunbroken : '\n' ∉ funcLiteral func := funcLiteral_unbroken hline
    obtain ⟨t, rfl⟩ := prefix_append_following hunbroken (literal_of_funcPattern hfound)
    have hne : u ++ (funcLiteral func ++ t) ≠ [] :=
      List.append_ne_nil_of_right_ne_nil u (funcLiteral_ne_nil func t)
    obtain ⟨e, he, ⟨m, -, hmember⟩ | ⟨hheader, -⟩⟩ := d.lines_split hlines hne
    · exact absurd hmember.symm (BtfMember.line_ne_func hfunc)
    · obtain ⟨typeId, hfunction, rfl⟩ := BtfEntry.func_of_header hfunc hheader.symm
      rw [funcPattern_literal, Option.some.injEq] at hfound
      exact ⟨e, he, typeId, hfunction, hfound.symm⟩
  · rintro ⟨e, he, typeId, hfunction, rfl⟩
    obtain ⟨front, rest, hlines, -⟩ := d.lines_of_mem he
    rw [BtfEntry.header_of_func hfunction] at hlines
    exact ⟨front, _, _, _, hlines, funcLiteral_ne_nil _ _, funcPattern_literal ..⟩

/-! ### The prototype -/

theorem indentedLines_unbroken {line : Str} (h : '\n' ∉ line) (text : Str) :
    indentedLines (line ++ text) = line ++ indentedLines text := by
  induction line with
  | nil => rfl
  | cons c line ih =>
    rw [List.mem_cons, not_or] at h
    rw [List.cons_append, indentedLines, ih h.2, List.cons_append]
    · exact fun _ hc => absurd hc.symm h.1
    · exact fun hc => absurd hc.symm h.1

/-- All indented lines are taken, up to a line that is not indented. -/
theorem indentedLines_following {tabbed rest : List Str}
    (htabbed : ∀ line ∈ tabbed, ∃ t, line = '\t' :: t ∧ '\n' ∉ t)
    (hrest : ∀ next ∈ rest.head?, next.head? ≠ some '\t') :
    indentedLines (following (tabbed ++ rest)) = following tabbed := by
  induction tabbed with
  | nil =>
    rw [List.nil_append]
    cases rest with
    | nil => rfl
    | cons next rest =>
      have hnext := hrest next rfl
      rw [following_cons, textOfLines]
      cases next with
      | nil =>
        cases rest with
        | nil => rfl
        | cons other rest =>
          rw [List.nil_append, following_cons]
          rfl
      | cons c next =>
        rw [List.cons_append, indentedLines]
        · rfl
        · intro text h
          exact absurd (congrArg some (List.cons.inj h).1) hnext
  | cons line tabbed ih =>
    rw [List.forall_mem_cons] at htabbed
    obtain ⟨⟨t, rfl, ht⟩, htail⟩ := htabbed
    have hsplit : following (('\t' :: t) :: (tabbed ++ rest)) =
        '\n' :: '\t' :: (t ++ following (tabbed ++ rest)) := rfl
    rw [List.cons_append, hsplit, indentedLines, indentedLines_unbroken ht, ih htail]
    rfl

theorem protoLiteral_append (id t : Str) : protoLiteral id ++ t =
    '[' :: (id ++ ']' :: (" FUNC_PROTO".toList ++ t)) := by
  simp only [protoLiteral, List.append_assoc, List.cons_append]

theorem literal_of_protoPattern {id : Str} {lineStart : Bool} {text found : Str}
    (h : protoPattern id lineStart text = some found) :
    lineStart = true ∧ protoLiteral id <+: text := by
  by_contra hnot
  unfold protoPattern at h
  rw [if_neg hnot] at h
  cases h

theorem withinLine_protoPattern (id : Str) : WithinLine (protoPattern id) where
  nil lineStart := by
    cases h : protoPattern id lineStart [] with
    | none => rfl
    | some found =>
      exact absurd (List.prefix_nil.mp (literal_of_protoPattern h).2) (List.cons_ne_nil _ _)
  newline lineStart rest := by
    cases h : protoPattern id lineStart ('\n' :: rest) with
    | none => rfl
    | some found =>
      exact absurd (List.cons_prefix_cons.mp (literal_of_protoPattern h).2).1 (by decide)

/-- The members of the prototype are found. -/
theorem protoPattern_literal {id t : Str} (ht : '\n' ∉ t) {members : List BtfMember}
    {rest : List Str} (hrest : ∀ next ∈ rest.head?, next.head? ≠ some '\t') :
    protoPattern id true (protoLiteral id ++ t ++ following (members.map BtfMember.line ++ rest)) =
      some (following (members.map BtfMember.line)) := by
  have hskip : (t ++ following (members.map BtfMember.line ++ rest)).dropWhile (· ≠ '\n') =
      following (members.map BtfMember.line ++ rest) := by
    have hplain : ∀ c ∈ t, decide (c ≠ '\n') = true := fun c hc =>
      decide_eq_true fun he => ht (he ▸ hc)
    rw [List.dropWhile_append_of_pos hplain]
    cases members.map BtfMember.line ++ rest with
    | nil => rfl
    | cons line lines =>
      rw [following_cons]
      exact List.dropWhile_cons_of_neg (by decide)
  unfold protoPattern
  rw [List.append_assoc, if_pos ⟨rfl, List.prefix_append _ _⟩, List.drop_left, hskip,
    indentedLines_following (fun line hline => ?_) hrest]
  obtain ⟨m, -, rfl⟩ := List.mem_map.mp hline
  have hunbroken := m.line_unbroken
  rw [BtfMember.line, List.cons_append, List.mem_cons, not_or] at hunbroken
  exact ⟨_, rfl, hunbroken.2⟩

/-- Only one kind begins the way the literal ends. -/
theorem BtfKind.proto_of_prefix {k : BtfKind} {s t : Str}
    (h : k.text.toList ++ ' ' :: s = "FUNC_PROTO".toList ++ t) : k = .funcProto := by
  have hleft : k.text.toList ++ [' '] <+: "FUNC_PROTO".toList ++ t := by
    have hcut : k.text.toList ++ ' ' :: s = k.text.toList ++ [' '] ++ s := by simp
    rw [← h, hcut]
    exact List.prefix_append _ s
  have hprefix := List.prefix_or_prefix_of_prefix hleft (List.prefix_append _ t)
  cases k with
  | funcProto => rfl
  | func typeId =>
    have hfunc : "FUNC".toList ++ [' '] <+: "FUNC_PROTO".toList ∨
        "FUNC_PROTO".toList <+: "FUNC".toList ++ [' '] := hprefix
    exact absurd hfunc (by decide)
  | _ => exact absurd hprefix (by decide)

theorem BtfEntry.header_of_proto {e : BtfEntry} (h : e.kind = .funcProto) : ∃ t, '\n' ∉ t ∧
    e.header = protoLiteral (decimal e.id) ++ t := by
  have hheader : e.header = protoLiteral (decimal e.id) ++
      (' ' :: '\'' :: e.name.text ++ '\'' :: (e.kind.reference ++ e.rest.text)) := by
    have htext : ' ' :: BtfKind.funcProto.text.toList = " FUNC_PROTO".toList := by decide
    rw [protoLiteral_append, header, h, ← htext]
    simp only [List.append_assoc, List.cons_append, List.nil_append]
  refine ⟨_, fun hmem => e.header_unbroken ?_, hheader⟩
  rw [hheader]
  exact List.mem_append_right _ hmem

/-- No other entry begins with the literal. -/
theorem BtfEntry.proto_of_header {e : BtfEntry} {id : ℕ} {t : Str}
    (h : e.header = protoLiteral (decimal id) ++ t) : e.id = id ∧ e.kind = .funcProto := by
  have hcut : e.header = '[' :: (decimal e.id ++ ']' :: (' ' :: (e.kind.text.toList ++
      ' ' :: ('\'' :: e.name.text ++ '\'' :: (e.kind.reference ++ e.rest.text))))) := by
    simp only [header, List.append_assoc, List.cons_append, List.nil_append]
  rw [hcut, protoLiteral_append] at h
  obtain ⟨hid, htail⟩ := append_cons_inj (not_mem_decimal rfl _) (not_mem_decimal rfl _)
    (List.cons.inj h).2
  have htext : " FUNC_PROTO".toList = ' ' :: "FUNC_PROTO".toList := by decide
  rw [htext, List.cons_append] at htail
  exact ⟨decimal_injective hid, BtfKind.proto_of_prefix (List.cons.inj htail).2⟩

/-- The prototype of that id is found, and its members. -/
theorem occurs_protoPattern {func : Str} (d : BtfDump func) (id : ℕ) {found : Str} :
    Occurs (protoPattern (decimal id)) true d.text found ↔
      ∃ proto ∈ d.entries, proto.id = id ∧ proto.kind = .funcProto ∧
        found = following (proto.members.map BtfMember.line) := by
  rw [BtfDump.text, occurs_textOfLines (withinLine_protoPattern _) d.lines_unbroken]
  constructor
  · rintro ⟨front, u, v, back, hlines, hv, hfound⟩
    obtain ⟨hstart, hprefix⟩ := literal_of_protoPattern hfound
    rw [List.isEmpty_iff.mp hstart, List.nil_append] at hlines
    have hunbroken : '\n' ∉ protoLiteral (decimal id) := by
      simp [protoLiteral, decimal_unbroken]
    obtain ⟨t, rfl⟩ := prefix_append_following hunbroken hprefix
    obtain ⟨e, he, ⟨m, -, hmember⟩ | ⟨hheader, rest, rfl, hrest⟩⟩ := d.lines_split hlines hv
    · rw [protoLiteral_append] at hmember
      exact absurd (List.cons.inj hmember).1 (by decide)
    · obtain ⟨hid, hkind⟩ := BtfEntry.proto_of_header hheader.symm
      have ht : '\n' ∉ t := fun hmem => e.header_unbroken (hheader ▸ List.mem_append_right _ hmem)
      rw [hstart, protoPattern_literal ht hrest, Option.some.injEq] at hfound
      exact ⟨e, he, hid, hkind, hfound.symm⟩
  · rintro ⟨proto, hproto, rfl, hkind, rfl⟩
    obtain ⟨front, rest, hlines, hrest⟩ := d.lines_of_mem hproto
    obtain ⟨t, ht, hheader⟩ := BtfEntry.header_of_proto hkind
    rw [hheader] at hlines
    exact ⟨front, [], _, _, hlines, List.cons_ne_nil _ _, protoPattern_literal ht hrest⟩

/-! ### The answer -/

/-- A quoted name in the text of the members is the name of a member. -/
theorem BtfEntry.quoted_infix_iff (e : BtfEntry) {param : Str} (hparam : '\'' ∉ param)
    (hline : '\n' ∉ param) :
    '\'' :: param ++ ['\''] <:+: following (e.members.map BtfMember.line) ↔ e.HasParam param := by
  have hunbroken : '\n' ∉ '\'' :: param ++ ['\''] := by simp [hline]
  have hlines : ∀ line ∈ [] :: e.members.map BtfMember.line, '\n' ∉ line := by
    rw [List.forall_mem_cons]
    refine ⟨List.not_mem_nil, fun line hmem => ?_⟩
    obtain ⟨m, -, rfl⟩ := List.mem_map.mp hmem
    exact m.line_unbroken
  have htext : following (e.members.map BtfMember.line) =
      textOfLines ([] :: e.members.map BtfMember.line) := rfl
  have hne : '\'' :: param ++ ['\''] ≠ [] := List.cons_ne_nil _ _
  rw [htext, infix_textOfLines hne hunbroken hlines]
  constructor
  · rintro ⟨line, hmem, s, t, h⟩
    rcases List.mem_cons.mp hmem with rfl | hmem
    · simp at h
    · obtain ⟨m, hm, rfl⟩ := List.mem_map.mp hmem
      have hquoted : ['\t'] ++ '\'' :: m.name.text ++ '\'' :: m.rest.text =
          s ++ ([] ++ '\'' :: param ++ '\'' :: t) := by
        have hmember : m.line = s ++ ('\'' :: param ++ ['\'']) ++ t := h.symm
        unfold BtfMember.line at hmember
        simpa using hmember
      exact ⟨m, hm, (quoted_inj (by decide) m.name.unquoted m.rest.unquoted hparam hquoted).2.1⟩
  · rintro ⟨m, hm, rfl⟩
    refine ⟨m.line, List.mem_cons_of_mem _ (List.mem_map_of_mem hm), ['\t'], m.rest.text, ?_⟩
    simp [BtfMember.line]

theorem BtfDump.pointsTo_unique {func : Str} {d : BtfDump func} {proto other : BtfEntry}
    (h : d.PointsTo proto) (hother : d.PointsTo other) : proto = other := by
  obtain ⟨⟨e, he, hfunc⟩, hproto, -⟩ := h
  obtain ⟨⟨e', he', hfunc'⟩, hproto', -⟩ := hother
  obtain rfl := d.one_func e he e' he' _ _ hfunc hfunc'
  have hid := BtfKind.func.inj (hfunc.1.symm.trans hfunc'.1)
  exact List.inj_on_of_nodup_map d.ids_nodup hproto hproto' hid

/-- What the check has to answer. -/
structure BtfDump.Answer {func : Str} (d : BtfDump func) (param : Str) (answer : Option Bool) :
    Prop where
  has : answer = some true ↔ ∃ proto, d.PointsTo proto ∧ proto.HasParam param
  lacks : answer = some false ↔ ∃ proto, d.PointsTo proto ∧ ¬ proto.HasParam param
  unknown : answer = none ↔ ∀ proto, ¬ d.PointsTo proto

theorem BtfDump.answer_none {func param : Str} {d : BtfDump func}
    (h : ∀ proto, ¬ d.PointsTo proto) : d.Answer param none where
  has := ⟨nofun, fun ⟨proto, hproto, _⟩ => absurd hproto (h proto)⟩
  lacks := ⟨nofun, fun ⟨proto, hproto, _⟩ => absurd hproto (h proto)⟩
  unknown := ⟨fun _ => h, fun _ => rfl⟩

theorem BtfDump.answer_some {func param : Str} {d : BtfDump func} {proto : BtfEntry}
    (h : d.PointsTo proto) {has : Bool} (hhas : has = true ↔ proto.HasParam param) :
    d.Answer param (some has) where
  has := by
    rw [Option.some.injEq, hhas]
    exact ⟨fun hparam => ⟨proto, h, hparam⟩, fun ⟨other, hother, hparam⟩ =>
      pointsTo_unique hother h ▸ hparam⟩
  lacks := by
    rw [Option.some.injEq, Bool.eq_false_iff, Ne, hhas]
    exact ⟨fun hparam => ⟨proto, h, hparam⟩, fun ⟨other, hother, hparam⟩ =>
      pointsTo_unique hother h ▸ hparam⟩
  unknown := ⟨nofun, fun hnone => absurd h (hnone proto)⟩

/-- The check answers for the function and the prototype it points to. -/
theorem textHasParam_answer {func param : Str} (hfunc : '\'' ∉ func) (hline : '\n' ∉ func)
    (hparam : '\'' ∉ param) (hparamLine : '\n' ∉ param) (d : BtfDump func) :
    d.Answer param (textHasParam func param d.text) := by
  unfold textHasParam
  cases hf : search (funcPattern func) d.text with
  | none =>
    refine BtfDump.answer_none fun proto => ?_
    rintro ⟨⟨e, he, hisFunc⟩, -⟩
    exact search_eq_none_iff.mp hf _
      ((occurs_funcPattern d hfunc hline).mpr ⟨e, he, proto.id, hisFunc, rfl⟩)
  | some found =>
    obtain ⟨e, he, typeId, hisFunc, rfl⟩ :=
      (occurs_funcPattern d hfunc hline).mp (occurs_of_searchFrom hf)
    dsimp only
    cases hp : search (protoPattern (decimal typeId)) d.text with
    | none =>
      refine BtfDump.answer_none fun proto => ?_
      rintro ⟨⟨e', he', hisFunc'⟩, hproto, hkind⟩
      obtain rfl := d.one_func e he e' he' _ _ hisFunc hisFunc'
      have hid := BtfKind.func.inj (hisFunc.1.symm.trans hisFunc'.1)
      exact search_eq_none_iff.mp hp _
        ((occurs_protoPattern d typeId).mpr ⟨proto, hproto, hid.symm, hkind, rfl⟩)
    | some members =>
      obtain ⟨proto, hproto, rfl, hkind, rfl⟩ :=
        (occurs_protoPattern d typeId).mp (occurs_of_searchFrom hp)
      refine BtfDump.answer_some ⟨⟨e, he, hisFunc⟩, hproto, hkind⟩ ?_
      rw [decide_eq_true_iff]
      exact proto.quoted_infix_iff hparam hparamLine

/-- A text that `bpftool` prints is read as one that is given. -/
theorem kernelFuncHasParam_stdout (func param text : Str) :
    kernelFuncHasParam func param none (.completed 0 text) = textHasParam func param text := by
  unfold kernelFuncHasParam
  dsimp only
  by_cases htext : text = []
  · have hsearch : search (funcPattern func) [] = none := (withinLine_funcPattern func).nil true
    rw [if_pos (.inr htext), htext, textHasParam, hsearch]
  · exact if_neg fun h => h.elim (fun hzero => hzero rfl) htext

/-- For every dump, whether it is given or `bpftool` prints it, the two checks answer for the
function, the prototype it points to and the parameters of that prototype. -/
theorem kernelRecvmsg_exact (run : BtfDumpRun) :
    (∀ d : BtfDump "tcp_recvmsg".toList,
      d.Answer "nonblock".toList (kernelTcpRecvmsgHasNonblock (some d.text) run) ∧
      d.Answer "nonblock".toList (kernelTcpRecvmsgHasNonblock none (.completed 0 d.text))) ∧
    ∀ d : BtfDump "udp_recvmsg".toList,
      d.Answer "noblock".toList (kernelUdpRecvmsgHasNoblock (some d.text) run) ∧
      d.Answer "noblock".toList (kernelUdpRecvmsgHasNoblock none (.completed 0 d.text)) := by
  refine ⟨fun d => ?_, fun d => ?_⟩
  · have hanswer := @textHasParam_answer "tcp_recvmsg".toList "nonblock".toList (by decide)
      (by decide) (by decide) (by decide) d
    refine ⟨hanswer, ?_⟩
    rw [kernelTcpRecvmsgHasNonblock, kernelFuncHasParam_stdout]
    exact hanswer
  · have hanswer := @textHasParam_answer "udp_recvmsg".toList "noblock".toList (by decide)
      (by decide) (by decide) (by decide) d
    refine ⟨hanswer, ?_⟩
    rw [kernelUdpRecvmsgHasNoblock, kernelFuncHasParam_stdout]
    exact hanswer

/-- A dump of a kernel whose `tcp_recvmsg` still has the parameter. -/
def nonblockDump : BtfDump "tcp_recvmsg".toList where
  entries := [
    { id := 53321, kind := .funcProto, name := { text := "(anon)".toList }
      rest := { text := " ret_type_id=13 vlen=6".toList }
      members := [
        { name := { text := "sk".toList }, rest := { text := " type_id=700".toList } },
        { name := { text := "msg".toList }, rest := { text := " type_id=6066".toList } },
        { name := { text := "len".toList }, rest := { text := " type_id=46".toList } },
        { name := { text := "nonblock".toList }, rest := { text := " type_id=13".toList } },
        { name := { text := "flags".toList }, rest := { text := " type_id=13".toList } },
        { name := { text := "addr_len".toList }, rest := { text := " type_id=92".toList } }] },
    { id := 86073, kind := .func 53321, name := { text := "tcp_recvmsg".toList }
      rest := { text := " linkage=static".toList } }]
  ids_nodup := by decide
  one_func := by
    intro e he e' he' n n' h h'
    simp only [List.mem_cons, List.not_mem_nil, or_false] at he he'
    rcases he with rfl | rfl
    · cases h.1
    · rcases he' with rfl | rfl
      · cases h'.1
      · rfl

example : nonblockDump.text = ("[53321] FUNC_PROTO '(anon)' ret_type_id=13 vlen=6\n" ++
      "\t'sk' type_id=700\n\t'msg' type_id=6066\n\t'len' type_id=46\n" ++
      "\t'nonblock' type_id=13\n\t'flags' type_id=13\n\t'addr_len' type_id=92\n" ++
      "[86073] FUNC 'tcp_recvmsg' type_id=53321 linkage=static\n").toList ∧
    kernelTcpRecvmsgHasNonblock (some nonblockDump.text) .failed = some true := by
  decide +kernel

end UdpAnalyzer
