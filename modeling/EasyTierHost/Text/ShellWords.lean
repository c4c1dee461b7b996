import EasyTierHost.Text.Shell

/- A quoted value in the middle of any script. Where a word may begin or go on, the
   value's characters come out of the reader one by one and in a row, as part of one
   word that starts with what stood before it; and what is read after them depends on
   that word only through its being there. Where nothing stands before or behind the
   value, the word is the value. -/
namespace Text.Shell

/-- The characters of a word. -/
def Token.syms : Token → List Sym
  | .word ys => ys
  | .descriptor ys => ys
  | .op _ => []
  | .newline => []

/-- What is still to come from a state at the end of a text. -/
def readFrom (s : State) (cs : List Char) : List Token := (run s cs).2 ++ (run s cs).1.pending.flush

theorem tokens_eq (cs : List Char) : tokens cs = readFrom .start cs := rfl

theorem readFrom_append (s : State) (as bs : List Char) :
    readFrom s (as ++ bs) = (run s as).2 ++ readFrom (run s as).1 bs := by
  rw [readFrom, run_append, readFrom]
  exact List.append_assoc _ _ _

theorem readFrom_cons (s : State) (c : Char) (cs : List Char) :
    readFrom s (c :: cs) = (step s c).2 ++ readFrom (step s c).1 cs := by
  rw [readFrom, run, readFrom]
  exact List.append_assoc _ _ _

/-! ## Going on with a word -/

/-- Inside quotes or a substitution a word only grows. -/
theorem stepIn_word {s : State} {ys : List Sym} (h : s.pending = .word ys) (f : Frame) (fs : List Frame)
    (c : Char) : ∃ zs, (stepIn s f fs c).pending = .word (ys ++ zs) := by
  have hself : s.pending = .word (ys ++ []) := by rw [h, List.append_nil]
  have hadd : ∀ zs, s.pending.add zs = .word (ys ++ zs) := by
    intro zs
    rw [h]
    rfl
  cases f with
  | single =>
    by_cases hq : c = '\''
    · simp only [stepIn, if_pos hq]
      exact ⟨_, hadd _⟩
    · simp only [stepIn, if_neg hq]
      exact ⟨_, hadd _⟩
  | double =>
    simp only [stepIn]
    split
    · split
      · exact ⟨_, hadd _⟩
      · split
        · exact ⟨_, hadd _⟩
        · split
          · exact ⟨_, hadd _⟩
          · exact ⟨_, hadd _⟩
    · split
      · exact ⟨_, hadd _⟩
      · split
        · exact ⟨_, hself⟩
        · split
          · exact ⟨_, hadd _⟩
          · exact ⟨_, hadd _⟩
  | subst =>
    simp only [stepIn]
    split
    · exact ⟨_, hadd _⟩
    · split
      · exact ⟨_, hadd _⟩
      · split
        · exact ⟨_, hadd _⟩
        · split
          · exact ⟨_, hself⟩
          · split
            · exact ⟨_, hadd _⟩
            · split
              · exact ⟨_, hadd _⟩
              · exact ⟨_, hadd _⟩

/-- What a character does to the word that is being read: it adds to it, ends it, or
turns it into the descriptor of a redirection. -/
inductive Goes (ys : List Sym) : State × List Token → Prop
  | adds {s : State} {zs : List Sym} (h : s.pending = .word (ys ++ zs)) : Goes ys (s, [])
  | ends (s : State) (ts : List Token) : Goes ys (s, .word ys :: ts)
  | descriptor (s : State) (h : isDescriptor ys = true) : Goes ys (s, [.descriptor ys])

theorem Goes.same {s : State} {ys : List Sym} (h : s.pending = .word ys) : Goes ys (s, []) := by
  have hsame : s.pending = .word (ys ++ []) := by rw [h, List.append_nil]
  exact .adds hsame

theorem Goes.ite {ys : List Sym} {p : Prop} [Decidable p] {x y : State × List Token}
    (hx : p → Goes ys x) (hy : ¬p → Goes ys y) : Goes ys (if p then x else y) := by
  by_cases h : p
  · rw [if_pos h]
    exact hx h
  · rw [if_neg h]
    exact hy h

theorem stepBare_word (ys : List Sym) (dollar escape : Bool) (c : Char) :
    Goes ys (stepBare ⟨[], .word ys, dollar, escape⟩ c) := by
  unfold stepBare
  refine Goes.ite (fun _ => ?_) (fun _ => ?_)
  · -- a backslash before the character
    exact Goes.ite (fun _ => .same rfl) (fun _ => .adds rfl)
  refine Goes.ite (fun _ => .ends _ _) (fun _ => ?_)
  refine Goes.ite (fun h => ?_) (fun _ => ?_)
  · cases h
  refine Goes.ite (fun _ => .ends _ _) (fun _ => ?_)
  refine Goes.ite (fun _ => .adds rfl) (fun _ => ?_)
  refine Goes.ite (fun _ => .adds rfl) (fun _ => ?_)
  refine Goes.ite (fun _ => .same rfl) (fun _ => ?_)
  refine Goes.ite (fun _ => .adds rfl) (fun _ => ?_)
  refine Goes.ite (fun _ => ?_) (fun _ => .adds rfl)
  refine Goes.ite (fun h => ?_) (fun _ => .ends _ _)
  rw [Bool.and_eq_true] at h
  exact .descriptor _ h.2

theorem step_word {s : State} {ys : List Sym} (h : s.pending = .word ys) (c : Char) : Goes ys (step s c) := by
  obtain ⟨frames, pending, dollar, escape⟩ := s
  replace h : pending = .word ys := h
  subst h
  cases frames with
  | nil => exact stepBare_word ys dollar escape c
  | cons f fs =>
    obtain ⟨zs, hzs⟩ := stepIn_word (s := ⟨f :: fs, .word ys, dollar, escape⟩) rfl f fs c
    exact .adds hzs

/-- The word that is being read comes out first, whatever follows. -/
theorem readFrom_word (cs : List Char) : ∀ {s : State} {ys : List Sym}, s.pending = .word ys →
    ∃ token right after, readFrom s cs = token :: after ∧ token.syms = ys ++ right ∧
      (token = .word token.syms ∨ isDescriptor token.syms = true) := by
  induction cs with
  | nil =>
    intro s ys h
    refine ⟨.word ys, [], [], ?_, (List.append_nil ys).symm, .inl rfl⟩
    rw [readFrom, run, h]
    rfl
  | cons c cs ih =>
    intro s ys h
    have hstep := step_word h c
    rw [readFrom_cons]
    generalize step s c = r at hstep
    cases hstep with
    | adds hpending =>
      obtain ⟨token, right, after, heq, hsyms, hkind⟩ := ih hpending
      exact ⟨token, _, after, heq, by rw [hsyms, List.append_assoc], hkind⟩
    | ends s' ts =>
      exact ⟨.word ys, [], _, List.cons_append, (List.append_nil ys).symm, .inl rfl⟩
    | descriptor s' hd =>
      exact ⟨.descriptor ys, [], _, List.cons_append, (List.append_nil ys).symm, .inr hd⟩

/-- A blank, a line end or an operator. -/
def isSeparator (c : Char) : Bool := isBlank c || c == '\n' || isOp c

/-- A separator ends it, -/
theorem readFrom_separated {ys : List Sym} (hd : isDescriptor ys = false) {cs : List Char}
    (h : ∀ c ∈ cs.head?, isSeparator c = true) :
    ∃ after, readFrom ⟨[], .word ys, false, false⟩ cs = .word ys :: after := by
  cases cs with
  | nil => exact ⟨[], rfl⟩
  | cons c cs =>
    have hc := h c rfl
    rw [readFrom_cons]
    have hstep : ∃ ts, (step ⟨[], .word ys, false, false⟩ c).2 = .word ys :: ts := by
      show ∃ ts, (stepBare ⟨[], .word ys, false, false⟩ c).2 = .word ys :: ts
      by_cases hline : c = '\n'
      · exact ⟨_, by simp only [stepBare, hline, Bool.false_eq_true, if_false, if_true]; rfl⟩
      by_cases hblank : isBlank c = true
      · refine ⟨[], ?_⟩
        simp only [stepBare, hline, hblank, Bool.false_eq_true, reduceCtorEq, if_false, if_true]
        rfl
      have hop : isOp c = true := by simpa [isSeparator, hline, hblank] using hc
      have hquote : ∀ d ∈ ['\'', '"', '\\'], c ≠ d := by
        intro d hm he
        rw [he] at hop
        have hno : ['\'', '"', '\\'].all (fun d => !isOp d) = true := by decide
        have hd := List.all_eq_true.mp hno d hm
        rw [hop] at hd
        exact Bool.noConfusion hd
      refine ⟨[], ?_⟩
      simp [stepBare, hline, hblank, hop, hd, hquote '\'' (by simp), hquote '"' (by simp), hquote '\\' (by simp)]
    obtain ⟨ts, hts⟩ := hstep
    exact ⟨_, by rw [hts, List.cons_append]⟩

/-! ## A quoted value anywhere -/

/-- A state in which a quote begins a quotation of a word: nothing is open, the text is no
comment, and no `$` stands directly before. -/
def State.atWord (s : State) : Bool :=
  s.frames.isEmpty && !s.escape && !s.dollar && s.pending != .comment

theorem run_quote_atWord {s : State} (h : s.atWord = true) (v : List Char) :
    run s (quote v) = (⟨[], .word (s.pending.syms ++ quotedSyms v), false, false⟩, s.pending.leave) := by
  obtain ⟨frames, pending, dollar, escape⟩ := s
  simp only [State.atWord, Bool.and_eq_true, List.isEmpty_iff, Bool.not_eq_true', bne_iff_ne] at h
  obtain ⟨⟨⟨rfl, rfl⟩, rfl⟩, hp⟩ := h
  have hopen : step ⟨[], pending, false, false⟩ '\''
      = (⟨[.single], .word pending.syms, false, false⟩, pending.leave) := by
    simp [step, stepBare, hp, Pending.add, isBlank]
  rw [quote, List.cons_append, run, hopen, run_quoted, List.append_nil]

/-- Every value stands where a quotation of a word begins. -/
def placed : State → Line → Bool
  | _, [] => true
  | s, .text t :: ps => placed (run s t.toList).1 ps
  | s, .value v :: ps => s.atWord && placed ⟨[], s.pending.add (quotedSyms v.toList), false, false⟩ ps

theorem render_append (pre ps : Line) : render (pre ++ ps) = render pre ++ render ps := List.flatMap_append

theorem placed_append : ∀ (pre : Line) {s : State} {ps : Line}, placed s (pre ++ ps) = true ↔
    placed s pre = true ∧ placed (run s (render pre)).1 ps = true
  | [], _, _ => (and_iff_right rfl).symm
  | .text t :: pre, s, ps => by
    rw [render, List.flatMap_cons, run_append]
    exact placed_append pre (s := (run s t.toList).1)
  | .value v :: pre, s, ps => by
    rw [List.cons_append, placed, placed, Bool.and_eq_true, Bool.and_eq_true, and_assoc]
    refine and_congr_right (fun hs => ?_)
    rw [render, List.flatMap_cons, run_append, Piece.render, run_quote_atWord hs]
    exact placed_append pre

/-- Lines that are read by themselves can be put together. -/
theorem placed_lines {lines : List Line}
    (h : ∀ line ∈ lines, placed .start line = true ∧ closed (render line) = true) :
    placed .start (lines.flatMap (fun line => line ++ [.text "\n"])) = true := by
  induction lines with
  | nil => rfl
  | cons line lines ih =>
    obtain ⟨hline, hclosed⟩ := h line List.mem_cons_self
    simp only [closed, Bool.and_eq_true, List.isEmpty_iff, Bool.not_eq_true'] at hclosed
    have hend : (run .start (render (line ++ [.text "\n"]))).1 = .start := by
      have hnl : render [.text "\n"] = ['\n'] := by
        rw [render, List.flatMap_singleton, Piece.render, String.toList_ofList]
      have hstep : step (run .start (render line)).1 '\n'
          = (.start, (run .start (render line)).1.pending.flush ++ [.newline]) := by
        simp [step, stepBare, hclosed.1, hclosed.2]
      rw [render_append, hnl, run_append, run, hstep]
      rfl
    rw [List.flatMap_cons, placed_append, hend, placed_append]
    exact ⟨⟨hline, rfl⟩, ih (fun l hl => h l (List.mem_cons_of_mem line hl))⟩

/-- Text alone places nothing. -/
theorem placed_text : ∀ (s : State) (texts : List String), placed s (texts.map .text) = true
  | _, [] => rfl
  | s, t :: texts => placed_text (run s t.toList).1 texts

/-- A blank behind a value: what follows is placed as at the start of a line. -/
theorem placed_gap {s : State} {v t : String} {cs : List Char} {ps : Line} (hs : s.atWord = true)
    (ht : t.toList = ' ' :: cs) (h : placed (run .start cs).1 ps = true) :
    placed s (.value v :: .text t :: ps) = true := by
  rw [placed, placed, hs, ht, Pending.add, run_blank]
  exact h

theorem step_semicolon (ys : List Sym) :
    step ⟨[], .word ys, false, false⟩ ';' = (⟨[], .op ';', false, false⟩, [.word ys]) := by
  simp [step, stepBare, isBlank, isOp]

/-- A value that is assigned. -/
theorem placed_assign {name : String} (h : isName name.toList = true) (v t : String) :
    placed .start (assign name v ++ [.text t]) = true := by
  have hname : ∀ c ∈ (name ++ "=").toList, ordinary c = true := by
    simp only [isName, Bool.and_eq_true, List.all_eq_true] at h
    intro c hc
    rw [String.toList_append, List.mem_append, String.toList_ofList, List.mem_singleton] at hc
    cases hc with
    | inl hc => exact ordinary_nameChar (h.1.1 c hc)
    | inr hc =>
      rw [hc]
      decide
  have hrun := run_word hname (by simp)
  simp only [assign, List.cons_append, List.nil_append, placed, hrun]
  rfl

theorem isDescriptor_quoted {v : List Char} (left right : List Sym) (h : v ≠ []) :
    isDescriptor (left ++ quotedSyms v ++ right) = false := by
  obtain ⟨c, cs, rfl⟩ := List.exists_cons_of_ne_nil h
  have hmark : ((if c = '\'' then (⟨c, .double⟩ : Sym) else ⟨c, .single⟩).mark == Mark.bare) = false := by
    split
    · rfl
    · rfl
  simp [isDescriptor, quotedSyms, hmark]

theorem isDescriptor_value (v : List Char) : isDescriptor (quotedSyms v) = false := by
  by_cases h : v = []
  · rw [h]
    rfl
  · have hd := isDescriptor_quoted [] [] h
    rwa [List.nil_append, List.append_nil] at hd

/-- Nothing stands directly before a value, and a separator behind it. -/
def Apart (pre post : Line) : Prop :=
  (run .start (render pre)).1.pending.syms = [] ∧ ∀ c ∈ (render post).head?, isSeparator c = true

/-- The tokens of a script have the value in them: its characters, each standing for
itself, are in a row in one token, which is a word if the value is not empty, and just
the value if it stands apart. -/
def HasValue (ts : List Token) (pre post : Line) (v : String) : Prop :=
  ∃ before token after left right, ts = before ++ token :: after ∧
    token.syms = left ++ quotedSyms v.toList ++ right ∧ literal (quotedSyms v.toList) = some v ∧
    (v ≠ "" → token = .word token.syms) ∧ (Apart pre post → token = .word (quotedSyms v.toList))

/-- Wherever a value is placed in a script, it is read there. -/
theorem tokens_hasValue {pre post : Line} {v : String} (h : placed .start (pre ++ .value v :: post) = true) :
    HasValue (tokens (render (pre ++ .value v :: post))) pre post v := by
  obtain ⟨-, hvalue⟩ := (placed_append pre).mp h
  rw [placed, Bool.and_eq_true] at hvalue
  have hread : tokens (render (pre ++ .value v :: post)) = ((run .start (render pre)).2 ++
      (run .start (render pre)).1.pending.leave) ++ readFrom ⟨[], .word ((run .start (render pre)).1.pending.syms ++
        quotedSyms v.toList), false, false⟩ (render post) := by
    have hcons : render (.value v :: post) = quote v.toList ++ render post := List.flatMap_cons
    rw [tokens_eq, render_append, hcons, readFrom_append, readFrom_append, run_quote_atWord hvalue.1,
      List.append_assoc]
  have hliteral : literal (quotedSyms v.toList) = some v := by
    have hl := literal_value v (t := "") rfl
    simpa [bare] using hl
  by_cases hapart : Apart pre post
  · obtain ⟨after, hafter⟩ := readFrom_separated (isDescriptor_value v.toList) hapart.2
    rw [hapart.1, List.nil_append, hafter] at hread
    exact ⟨_, _, after, [], [], hread, by rw [List.nil_append, List.append_nil]; rfl, hliteral,
      fun _ => rfl, fun _ => rfl⟩
  · obtain ⟨token, right, after, hafter, hsyms, hkind⟩ := readFrom_word (render post)
      (s := ⟨[], .word ((run .start (render pre)).1.pending.syms ++ quotedSyms v.toList), false, false⟩) rfl
    rw [hafter] at hread
    refine ⟨_, token, after, _, right, hread, hsyms, hliteral, fun hne => ?_, fun ha => absurd ha hapart⟩
    refine hkind.resolve_right ?_
    have hchars : v.toList ≠ [] := by simpa using hne
    rw [hsyms, isDescriptor_quoted _ _ hchars]
    exact Bool.false_ne_true

end Text.Shell
