import Mathlib.Data.List.Forall2
import Mathlib.Tactic.Common

/- How bash reads a script: characters to words, operators and line ends. Quotes,
   backslashes, comments, descriptors of redirections and command substitutions are
   read; the text of a substitution is kept as it stands, to be read when it runs.
   Here documents and backquotes are not. A carriage return is a character like any
   other: only space and tab are blanks, and only the line feed ends a line.

   A generated line is made of pieces, fixed text and quoted values. `meant` reads it
   with every value as a block of characters; `run_pieces` says that the reader, which
   has only the text, agrees. -/
namespace Text.Shell

/-! ## The reader -/

/-- What the text stands in. -/
inductive Frame where
  | single | double | subst
  deriving DecidableEq, Repr

/-- How a character of a word was written. -/
inductive Mark where
  | bare | single | double | subst
  deriving DecidableEq, Repr

structure Sym where
  char : Char
  mark : Mark
  deriving DecidableEq, Repr

inductive Token where
  | word (syms : List Sym)
  | descriptor (digits : List Sym)
  | op (chars : List Char)
  | newline
  deriving DecidableEq, Repr

/-- The token that is being read. -/
inductive Pending where
  | blank
  | word (syms : List Sym)
  | op (c : Char)
  | comment
  deriving DecidableEq, Repr

namespace Pending

/-- What comes out when the token ends. -/
def flush : Pending → List Token
  | blank => []
  | word syms => [.word syms]
  | op c => [.op [c]]
  | comment => []

/-- What comes out when a character of a word follows. -/
def leave : Pending → List Token
  | op c => [.op [c]]
  | _ => []

/-- The characters of the word so far. -/
def syms : Pending → List Sym
  | word syms => syms
  | _ => []

def add (p : Pending) (ys : List Sym) : Pending := .word (p.syms ++ ys)

end Pending

/-- `dollar`: the last character was a `$` that may begin a substitution. `escape`: it
was a backslash. -/
structure State where
  frames : List Frame
  pending : Pending
  dollar : Bool
  escape : Bool
  deriving DecidableEq, Repr

def State.start : State := ⟨[], .blank, false, false⟩

def isBlank (c : Char) : Bool := c == ' ' || c == '\t'

def isOp (c : Char) : Bool := ['|', '&', ';', '<', '>', '(', ')'].contains c

/-- The operators of two characters. -/
def isOperator (c d : Char) : Bool :=
  [('|', '|'), ('&', '&'), (';', ';'), (';', '&'), ('<', '<'), ('>', '>'), ('<', '&'), ('>', '&'),
    ('<', '>'), ('>', '|'), ('|', '&'), ('&', '>')].contains (c, d)

/-- A word that is the descriptor of the redirection after it. -/
def isDescriptor (ys : List Sym) : Bool :=
  !ys.isEmpty && ys.all (fun y => y.mark == .bare && y.char.isDigit)

/-- Outside quotes and substitutions. -/
def stepBare (s : State) (c : Char) : State × List Token :=
  if s.escape then
    if c = '\n' then (⟨[], s.pending, false, false⟩, [])
    else (⟨[], s.pending.add [⟨c, .single⟩], false, false⟩, s.pending.leave)
  else if c = '\n' then (.start, s.pending.flush ++ [.newline])
  else if s.pending = .comment then (s, [])
  else if isBlank c then (.start, s.pending.flush)
  else if c = '\'' then (⟨[.single], s.pending.add [], false, false⟩, s.pending.leave)
  else if c = '"' then (⟨[.double], s.pending.add [], false, false⟩, s.pending.leave)
  else if c = '\\' then (⟨[], s.pending, false, true⟩, [])
  else if s.dollar && c == '(' then (⟨[.subst], s.pending.add [⟨c, .subst⟩], false, false⟩, [])
  else if isOp c then
    match s.pending with
    | .op d =>
      if isOperator d c then (.start, [.op [d, c]]) else (⟨[], .op c, false, false⟩, [.op [d]])
    | .word ys =>
      if (c == '<' || c == '>') && isDescriptor ys then
        (⟨[], .op c, false, false⟩, [.descriptor ys])
      else (⟨[], .op c, false, false⟩, [.word ys])
    | p => (⟨[], .op c, false, false⟩, p.flush)
  else
    match s.pending with
    | .word ys => (⟨[], .word (ys ++ [⟨c, .bare⟩]), c == '$', false⟩, [])
    | p =>
      if c = '#' then (⟨[], .comment, false, false⟩, p.leave)
      else (⟨[], .word [⟨c, .bare⟩], c == '$', false⟩, p.leave)

/-- How a character inside `frames` is written; in a substitution it is part of its
text. -/
def markOf (frames : List Frame) : Mark :=
  if frames.contains .subst then .subst else if frames.head? = some .double then .double else .single

/-- Inside the quotes or the substitution `f`, which stands in `fs`. -/
def stepIn (s : State) (f : Frame) (fs : List Frame) (c : Char) : State :=
  let kept (frames : List Frame) (ys : List Sym) : State :=
    ⟨frames, s.pending.add ys, c == '$' && f == .double && !s.escape, false⟩
  -- a quote is a character of the word only in the text of a substitution
  let quote (frames : List Frame) : List Sym :=
    if frames.contains .subst then [⟨c, .subst⟩] else []
  let self := markOf (f :: fs)
  match f with
  | .single => if c = '\'' then kept fs (quote fs) else kept (f :: fs) [⟨c, self⟩]
  | .double =>
    if s.escape then
      if self = .subst then kept (f :: fs) [⟨'\\', self⟩, ⟨c, self⟩]
      else if c = '\n' then kept (f :: fs) []
      else if ['$', '"', '\\', Char.ofNat 96].contains c then kept (f :: fs) [⟨c, .single⟩]
      else kept (f :: fs) [⟨'\\', self⟩, ⟨c, self⟩]
    else if c = '"' then kept fs (quote fs)
    else if c = '\\' then ⟨f :: fs, s.pending, false, true⟩
    else if s.dollar && c == '(' then kept (.subst :: f :: fs) [⟨c, .subst⟩]
    else kept (f :: fs) [⟨c, self⟩]
  | .subst =>
    if s.escape then kept (f :: fs) [⟨'\\', self⟩, ⟨c, self⟩]
    else if c = '\'' then kept (.single :: f :: fs) [⟨c, self⟩]
    else if c = '"' then kept (.double :: f :: fs) [⟨c, self⟩]
    else if c = '\\' then ⟨f :: fs, s.pending, false, true⟩
    else if c = '(' then kept (.subst :: f :: fs) [⟨c, self⟩]
    else if c = ')' then kept fs [⟨c, self⟩]
    else kept (f :: fs) [⟨c, self⟩]

def step (s : State) (c : Char) : State × List Token :=
  match s.frames with
  | [] => stepBare s c
  | f :: fs => (stepIn s f fs c, [])

def run : State → List Char → State × List Token
  | s, [] => (s, [])
  | s, c :: cs => ((run (step s c).1 cs).1, (step s c).2 ++ (run (step s c).1 cs).2)

/-- The tokens of a text. -/
def tokens (cs : List Char) : List Token := (run .start cs).2 ++ (run .start cs).1.pending.flush

/-- The tokens of each line. -/
def linesFrom (line : List Token) : List Token → List (List Token)
  | [] => if line.isEmpty then [] else [line]
  | .newline :: ts => line :: linesFrom [] ts
  | t :: ts => linesFrom (line ++ [t]) ts

/-- A script as bash reads it. -/
def readScript (cs : List Char) : List (List Token) := linesFrom [] (tokens cs)

theorem run_append : ∀ (s : State) (as bs : List Char),
    run s (as ++ bs) = ((run (run s as).1 bs).1, (run s as).2 ++ (run (run s as).1 bs).2)
  | _, [], _ => by simp [run]
  | s, a :: as, bs => by
    simp only [List.cons_append, run]
    rw [run_append (step s a).1 as bs]
    simp [List.append_assoc]

/-! ## Lines -/

/-- A text that leaves no quote, substitution or backslash open. -/
def closed (cs : List Char) : Bool :=
  (run .start cs).1.frames.isEmpty && !(run .start cs).1.escape

/-- A line is read by itself. -/
theorem tokens_line {line : List Char} (h : closed line = true) (rest : List Char) :
    tokens (line ++ '\n' :: rest) = tokens line ++ .newline :: tokens rest := by
  simp only [closed, Bool.and_eq_true, List.isEmpty_iff, Bool.not_eq_true'] at h
  have hstep : step (run .start line).1 '\n'
      = (.start, (run .start line).1.pending.flush ++ [.newline]) := by
    simp [step, stepBare, h.1, h.2]
  rw [tokens, run_append, run, hstep]
  simp [tokens, List.append_assoc]

/-- What bash makes of one line of a script. -/
structure Reads (line : List Char) (ts : List Token) : Prop where
  closed : closed line = true
  tokens : tokens line = ts
  single : Token.newline ∉ ts

theorem linesFrom_line : ∀ {ts : List Token}, Token.newline ∉ ts → ∀ (line rest : List Token),
    linesFrom line (ts ++ .newline :: rest) = (line ++ ts) :: linesFrom [] rest
  | [], _, line, rest => by rw [List.nil_append, linesFrom, List.append_nil]
  | t :: ts, h, line, rest => by
    have ht : t ≠ .newline := fun he => h (he ▸ List.mem_cons_self)
    have hts : Token.newline ∉ ts := fun hm => h (List.mem_cons_of_mem t hm)
    have hstep : linesFrom line (t :: (ts ++ .newline :: rest))
        = linesFrom (line ++ [t]) (ts ++ .newline :: rest) := by
      cases t with
      | newline => exact absurd rfl ht
      | word ys => rfl
      | descriptor ys => rfl
      | op o => rfl
    rw [List.cons_append, hstep, linesFrom_line hts (line ++ [t]) rest]
    simp

/-- The text of a script: every line and a line feed. -/
def script (lines : List (List Char)) : List Char := lines.flatMap (fun line => line ++ ['\n'])

/-- A script is read line by line. -/
theorem readScript_lines {lines : List (List Char)} {ls : List (List Token)}
    (h : List.Forall₂ Reads lines ls) : readScript (script lines) = ls := by
  induction h with
  | nil => rfl
  | @cons line ts lines ls hline _ ih =>
    have htext : script (line :: lines) = line ++ '\n' :: script lines := by
      simp [script]
    rw [readScript, htext, tokens_line hline.closed, hline.tokens, linesFrom_line hline.single,
      List.nil_append]
    exact congrArg (ts :: ·) ih

/-! ## Quoting -/

/-- Single quotes around a value; a quote in it leaves them for double quotes. -/
def quote (v : List Char) : List Char :=
  '\'' :: v.flatMap (fun c => if c = '\'' then ['\'', '"', '\'', '"', '\''] else [c]) ++ ['\'']

/-- The characters of a quoted value. -/
def quotedSyms (v : List Char) : List Sym :=
  v.map (fun c => if c = '\'' then ⟨c, .double⟩ else ⟨c, .single⟩)

/-- A state in which a quoted value continues or begins a word. -/
def State.ready (s : State) : Bool :=
  s.frames.isEmpty && !s.escape && match s.pending with
    | .blank | .word _ => true
    | _ => false

/-- The state after a quoted value. -/
def State.value (s : State) (v : List Char) : State := ⟨[], s.pending.add (quotedSyms v), false, false⟩

theorem run_quoted : ∀ (v : List Char) (ys : List Sym),
    run ⟨[.single], .word ys, false, false⟩
        (v.flatMap (fun c => if c = '\'' then ['\'', '"', '\'', '"', '\''] else [c]) ++ ['\''])
      = (⟨[], .word (ys ++ quotedSyms v), false, false⟩, [])
  | [], ys => by simp [run, step, stepIn, quotedSyms, Pending.add, Pending.syms]
  | c :: v, ys => by
    by_cases hc : c = '\''
    · -- out of the quotes, the quote in double quotes, and in again
      have hsteps : run ⟨[.single], .word ys, false, false⟩ ['\'', '"', '\'', '"', '\'']
          = (⟨[.single], .word (ys ++ [⟨'\'', .double⟩]), false, false⟩, []) := by
        simp [run, step, stepBare, stepIn, Pending.add, Pending.syms, Pending.leave, markOf, isBlank]
      rw [List.flatMap_cons, if_pos hc, List.append_assoc, run_append, hsteps, run_quoted v]
      simp [quotedSyms, hc]
    · have hstep : step ⟨[.single], .word ys, false, false⟩ c
          = (⟨[.single], .word (ys ++ [⟨c, .single⟩]), false, false⟩, []) := by
        simp [step, stepIn, hc, Pending.add, Pending.syms, markOf]
      rw [List.flatMap_cons, if_neg hc, List.append_assoc, List.singleton_append, run, hstep,
        run_quoted v]
      simp [quotedSyms, hc]

/-- A quoted value is its characters, whatever they are. -/
theorem run_quote {s : State} (h : s.ready = true) (v : List Char) :
    run s (quote v) = (s.value v, []) := by
  obtain ⟨frames, pending, dollar, escape⟩ := s
  simp only [State.ready, Bool.and_eq_true, List.isEmpty_iff, Bool.not_eq_true'] at h
  obtain ⟨⟨rfl, rfl⟩, hp⟩ := h
  have hopen : step ⟨[], pending, dollar, false⟩ '\''
      = (⟨[.single], .word pending.syms, false, false⟩, []) := by
    cases pending with
    | blank => simp [step, stepBare, Pending.add, Pending.syms, Pending.leave, isBlank]
    | word ys => simp [step, stepBare, Pending.add, Pending.syms, Pending.leave, isBlank]
    | op c => cases hp
    | comment => cases hp
  rw [quote, List.cons_append, run, hopen, run_quoted]
  simp [State.value, Pending.add]

/-! ## Generated lines -/

/-- A piece of a generated line: text of the generator, or a value it quotes. -/
inductive Piece where
  | text (s : String)
  | value (v : String)
  deriving DecidableEq, Repr

abbrev Line := List Piece

def Piece.render : Piece → List Char
  | .text s => s.toList
  | .value v => quote v.toList

def render (line : Line) : List Char := line.flatMap Piece.render

/-- The reader with every value as a block. -/
def runPieces : State → Line → State × List Token
  | s, [] => (s, [])
  | s, .text t :: ps =>
    let r := run s t.toList
    ((runPieces r.1 ps).1, r.2 ++ (runPieces r.1 ps).2)
  | s, .value v :: ps => runPieces (s.value v.toList) ps

/-- Every value stands where a word may begin or go on. -/
def fits : State → Line → Bool
  | _, [] => true
  | s, .text t :: ps => fits (run s t.toList).1 ps
  | s, .value v :: ps => s.ready && fits (s.value v.toList) ps

/-- The tokens a line is meant to have. -/
def meant (line : Line) : List Token :=
  (runPieces .start line).2 ++ (runPieces .start line).1.pending.flush

theorem run_pieces : ∀ (line : Line) (s : State), fits s line = true →
    run s (render line) = runPieces s line
  | [], _, _ => rfl
  | .text t :: ps, s, h => by
    rw [render, List.flatMap_cons, run_append, runPieces]
    exact congrArg (fun r : State × List Token => (r.1, (run s t.toList).2 ++ r.2))
      (run_pieces ps (run s t.toList).1 h)
  | .value v :: ps, s, h => by
    simp only [fits, Bool.and_eq_true] at h
    rw [render, List.flatMap_cons, run_append, Piece.render, run_quote h.1, runPieces]
    exact run_pieces ps (s.value v.toList) h.2

/-- A line whose values fit is read as it is meant. -/
theorem tokens_render {line : Line} (h : fits .start line = true) :
    tokens (render line) = meant line := by
  rw [tokens, run_pieces line .start h, meant]

/-- A line that bash reads as it is meant. -/
def sound (line : Line) : Bool :=
  fits .start line && (runPieces .start line).1.frames.isEmpty &&
    !(runPieces .start line).1.escape && !(meant line).contains .newline

theorem reads_render {line : Line} (h : sound line = true) : Reads (render line) (meant line) := by
  simp only [sound, Bool.and_eq_true, Bool.not_eq_true'] at h
  obtain ⟨⟨⟨hfits, hframes⟩, hescape⟩, hsingle⟩ := h
  refine ⟨?_, tokens_render hfits, ?_⟩
  · rw [closed, run_pieces line .start hfits, hframes, hescape]
    rfl
  · intro hmem
    rw [List.contains_iff_mem.mpr hmem] at hsingle
    cases hsingle

/-- A script of sound lines is read as it is meant. -/
theorem readScript_render {lines : List Line} (h : ∀ line ∈ lines, sound line = true) :
    readScript (script (lines.map render)) = lines.map meant := by
  apply readScript_lines
  rw [List.forall₂_map_left_iff, List.forall₂_map_right_iff]
  exact List.forall₂_same.mpr (fun line hl => reads_render (h line hl))

/-! ## Words -/

/-- A character that stands for itself: nothing is expanded from it. -/
def Sym.plain (y : Sym) : Bool :=
  match y.mark with
  | .single => true
  | .double => y.char != '$' && y.char != Char.ofNat 96
  | .bare => !(['$', '*', '?', '[', ']', '~', '\x7b', '\x7d', Char.ofNat 96].contains y.char)
  | .subst => false

/-- The text of a word from which nothing is expanded. -/
def literal (ys : List Sym) : Option String :=
  if ys.all Sym.plain then some (String.ofList (ys.map Sym.char)) else none

theorem quotedSyms_plain (v : List Char) : (quotedSyms v).all Sym.plain = true := by
  rw [List.all_eq_true]
  intro y hy
  obtain ⟨c, -, rfl⟩ := List.mem_map.mp hy
  by_cases hc : c = '\''
  · simp only [hc, if_true]
    decide
  · simp [hc, Sym.plain]

theorem quotedSyms_chars (v : List Char) : (quotedSyms v).map Sym.char = v := by
  rw [quotedSyms, List.map_map]
  conv_rhs => rw [← List.map_id v]
  apply List.map_congr_left
  intro c _
  by_cases hc : c = '\''
  · simp [hc]
  · simp [hc]

def bare (cs : List Char) : List Sym := cs.map (fun c => ⟨c, .bare⟩)

theorem bare_chars (cs : List Char) : (bare cs).map Sym.char = cs := by
  simp [bare, Function.comp_def]

/-- A quoted value with text behind it. -/
theorem literal_value (v : String) {t : String} (ht : (bare t.toList).all Sym.plain = true) :
    literal (quotedSyms v.toList ++ bare t.toList) = some (v ++ t) := by
  rw [literal, List.all_append, quotedSyms_plain, ht]
  simp [quotedSyms_chars, bare_chars]

/-- The arguments of a command of plain words. -/
def arguments : List Token → Option (List String)
  | [] => some []
  | .word ys :: ts => (literal ys).bind (fun a => (arguments ts).map (a :: ·))
  | _ => none

def isNameChar (c : Char) : Bool := c.isAlphanum || c == '_'

/-- The name and the value of a word that assigns. -/
def assignment (ys : List Sym) : Option (List Char × List Sym) :=
  let name := (ys.takeWhile (fun y => y.mark == .bare && isNameChar y.char)).map Sym.char
  match ys.drop name.length, name with
  | ⟨'=', .bare⟩ :: value, first :: _ => if first.isDigit then none else some (name, value)
  | _, _ => none

/-- The assignment a line consists of. -/
def lineAssignment : List Token → Option (List Char × List Sym)
  | [.word ys] => assignment ys
  | _ => none

/-- The values the lines of a script assign to a name; none where one is expanded. -/
def assigned (name : String) (lines : List (List Token)) : List (Option String) :=
  (lines.filterMap lineAssignment).filterMap
    (fun a => if a.1 = name.toList then some (literal a.2) else none)

/-! ## Lines of text, and lines that assign a value -/

/-- A line without values. -/
theorem meant_text (s t : String) : meant [.text s, .text t] = tokens (s.toList ++ t.toList) := by
  simp only [meant, runPieces, tokens, run_append, List.append_nil]

theorem sound_text {s t : String} (hclosed : closed (s.toList ++ t.toList) = true)
    (hsingle : (tokens (s.toList ++ t.toList)).contains .newline = false) :
    sound [.text s, .text t] = true := by
  simp only [closed, run_append, Bool.and_eq_true] at hclosed
  simp only [sound, fits, meant_text, hsingle, runPieces, hclosed.1, hclosed.2]
  rfl

/-- The characters that may do more than stand in a word. -/
def special : List Char :=
  ['|', '&', ';', '<', '>', '(', ')', ' ', '\t', '\n', '\'', '"', '\\', '#', '$']

def ordinary (c : Char) : Bool := !special.contains c

theorem step_ordinary {c : Char} (h : ordinary c = true) {p : Pending}
    (hp : p = .blank ∨ ∃ ys, p = .word ys) :
    step ⟨[], p, false, false⟩ c = (⟨[], p.add [⟨c, .bare⟩], false, false⟩, []) := by
  simp only [ordinary, special, Bool.not_eq_true', Bool.or_eq_false_iff, List.contains_cons,
    beq_eq_false_iff_ne] at h
  have hop : isOp c = false := by simp [isOp, h]
  have hblank : isBlank c = false := by simp [isBlank, h]
  rcases hp with rfl | ⟨ys, rfl⟩
  · simp [step, stepBare, hop, hblank, h, Pending.leave, Pending.add, Pending.syms]
  · simp [step, stepBare, hop, hblank, h, Pending.add, Pending.syms]

theorem run_ordinary : ∀ {cs : List Char}, (∀ c ∈ cs, ordinary c = true) → ∀ (ys : List Sym),
    run ⟨[], .word ys, false, false⟩ cs = (⟨[], .word (ys ++ bare cs), false, false⟩, [])
  | [], _, ys => by simp [run, bare]
  | c :: cs, h, ys => by
    have hstep := step_ordinary (h c List.mem_cons_self) (p := .word ys) (.inr ⟨ys, rfl⟩)
    rw [run, hstep]
    simp only [Pending.add, Pending.syms]
    rw [run_ordinary (fun d hd => h d (List.mem_cons_of_mem c hd))]
    simp [bare]

/-- A text of such characters is one word. -/
theorem run_word {cs : List Char} (h : ∀ c ∈ cs, ordinary c = true) (hne : cs ≠ []) :
    run .start cs = (⟨[], .word (bare cs), false, false⟩, []) := by
  cases cs with
  | nil => exact absurd rfl hne
  | cons c cs =>
    have hstep := step_ordinary (h c List.mem_cons_self) (p := .blank) (.inl rfl)
    rw [run, State.start, hstep]
    simp only [Pending.add, Pending.syms]
    rw [run_ordinary (fun d hd => h d (List.mem_cons_of_mem c hd))]
    simp [bare]

/-- A blank ends a word. -/
theorem run_blank (ys : List Sym) (cs : List Char) :
    run ⟨[], .word ys, false, false⟩ (' ' :: cs)
      = ((run .start cs).1, .word ys :: (run .start cs).2) := by
  have hstep : step ⟨[], .word ys, false, false⟩ ' ' = (.start, [.word ys]) := by
    simp [step, stepBare, isBlank, Pending.flush]
  rw [run, hstep, List.singleton_append]

/-- `name=` and a quoted value. -/
def assign (name value : String) : Line := [.text (name ++ "="), .value value]

/-- A name that can be assigned to. -/
def isName (name : List Char) : Bool :=
  name.all isNameChar && !(name.take 1).isEmpty && !(name.take 1).any Char.isDigit

theorem ordinary_nameChar {c : Char} (h : isNameChar c = true) : ordinary c = true := by
  have hnone : special.all (fun d => !isNameChar d) = true := by decide
  rw [ordinary, Bool.not_eq_true']
  by_contra hc
  rw [Bool.not_eq_false, List.contains_iff_mem] at hc
  have hn := List.all_eq_true.1 hnone c hc
  rw [h] at hn
  cases hn

section Assign
variable {name t : String} (hn : isName name.toList = true) (ht : ∀ c ∈ t.toList, ordinary c = true)
  (value : String)
include hn ht

theorem runPieces_assign :
    fits .start (assign name value ++ [.text t]) = true ∧
    runPieces .start (assign name value ++ [.text t]) =
      (⟨[], .word (bare (name.toList ++ ['=']) ++ (quotedSyms value.toList ++ bare t.toList)),
        false, false⟩, []) := by
  have hname : ∀ c ∈ (name ++ "=").toList, ordinary c = true := by
    simp only [isName, Bool.and_eq_true, List.all_eq_true] at hn
    intro c hc
    rw [String.toList_append, List.mem_append] at hc
    cases hc with
    | inl hc =>
      exact ordinary_nameChar (hn.1.1 c hc)
    | inr hc =>
      rw [String.toList_ofList, List.mem_singleton] at hc
      rw [hc]
      decide
  have hne : (name ++ "=").toList ≠ [] := by simp
  have hrun := run_word hname hne
  have htext : (name ++ "=").toList = name.toList ++ ['='] := by
    rw [String.toList_append, String.toList_ofList]
  have hrest := run_ordinary ht (bare (name ++ "=").toList ++ quotedSyms value.toList)
  constructor
  · simp only [assign, List.cons_append, List.nil_append, fits, hrun]
    rfl
  · simp only [assign, List.cons_append, List.nil_append, runPieces, hrun, State.value, Pending.add,
      Pending.syms]
    rw [hrest, htext]
    simp

theorem sound_assign : sound (assign name value ++ [.text t]) = true := by
  obtain ⟨hfits, hrun⟩ := runPieces_assign hn ht value
  rw [sound, meant, hfits, hrun]
  rfl

/-- The line assigns the value and what stands behind it. -/
theorem lineAssignment_assign :
    lineAssignment (meant (assign name value ++ [.text t])) =
      some (name.toList, quotedSyms value.toList ++ bare t.toList) := by
  obtain ⟨-, hrun⟩ := runPieces_assign hn ht value
  simp only [isName, Bool.and_eq_true, List.all_eq_true] at hn
  obtain ⟨⟨hname, hne⟩, hdigit⟩ := hn
  have htake : ((bare (name.toList ++ ['=']) ++ (quotedSyms value.toList ++ bare t.toList)).takeWhile
      (fun y => y.mark == .bare && isNameChar y.char)).map Sym.char = name.toList := by
    rw [bare, List.map_append, List.append_assoc, List.takeWhile_append_of_pos]
    · have hstop : isNameChar '=' = false := by decide
      simp [hstop, Function.comp_def]
    · intro y hy
      obtain ⟨c, hc, rfl⟩ := List.mem_map.mp hy
      simp [hname c hc]
  have hdrop : (bare (name.toList ++ ['=']) ++ (quotedSyms value.toList ++ bare t.toList)).drop
      name.toList.length = ⟨'=', .bare⟩ :: (quotedSyms value.toList ++ bare t.toList) := by
    rw [bare, List.map_append, List.append_assoc]
    exact List.drop_left' (by simp)
  rw [meant, hrun]
  change assignment _ = _
  rw [assignment, htake, hdrop]
  cases hcs : name.toList with
  | nil => simp [hcs] at hne
  | cons c cs =>
    rw [hcs] at hdigit
    simp at hdigit
    simp [hdigit]

end Assign

end Text.Shell
