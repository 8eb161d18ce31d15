import TokenListing.Proofs.Tokenizer.Position

set_option autoImplicit false

/-!
What there is to tell of a text: of every comment when it opens, and of one that is never closed also at
its end; of every token that is no fault, and of a new identifier right before that. All is told in the
order of the text, and once.
-/

namespace TokenListing

open Grammar Text Trace

def Trace.Event.isComment : Event → Bool
  | .lineComment _ | .blockComment _ | .unclosed _ => true
  | .interned _ | .scanned _ _ => false

namespace Token

def lexeme? (t : Token Word) : Option String := t.word?.map Word.lexeme

/-- The spelling that a token brings in, given the spellings of the tokens before it. -/
def newcomer? (seen : List String) (t : Token Word) : Option String :=
  t.lexeme?.filter (· ∉ "true" :: "false" :: seen)

end Token

def lexemesOf : Except Fault (Token Word) → List String
  | .ok token => token.lexeme?.toList
  | .error _ => []

/-- What there is to tell of what a step comes to on a line. -/
def toldOf (seen : List String) (line : UInt32) : Except Fault (Token Word) → List Event
  | .ok token => (token.newcomer? seen).toList.map .interned ++ [.scanned line token]
  | .error _ => []

namespace Grammar

/-- What there is to tell of a place, given the spellings of the tokens in front of it. -/
def Placed.told (seen : List String) (p : Placed) : List Event :=
  p.segment.events p.front ++ (p.outcome?.map (toldOf seen (lineAfter p.front))).getD []

def Placed.lexemes (p : Placed) : List String := (p.outcome?.map lexemesOf).getD []

/-- The spellings of the words among some places. -/
def lexemes (ps : List Placed) : List String := ps.flatMap Placed.lexemes

/-- What is told of each of some places, in their order. -/
def report {β : Type} (tell : List String → Placed → List β) (seen : List String) :
    List Placed → List β
  | [] => []
  | p :: more => tell seen p ++ report tell (seen ++ p.lexemes) more

theorem lexemes_append (ps qs : List Placed) : lexemes (ps ++ qs) = lexemes ps ++ lexemes qs :=
  List.flatMap_append

theorem report_append {β : Type} (tell : List String → Placed → List β) (seen : List String)
    (ps qs : List Placed) :
    report tell seen (ps ++ qs) = report tell seen ps ++ report tell (seen ++ lexemes ps) qs := by
  induction ps generalizing seen with
  | nil => simp [report, lexemes]
  | cons p ps ih => simp [report, lexemes, ih]

theorem mem_report {β : Type} {tell : List String → Placed → List β} {seen : List String}
    {ps : List Placed} {b : β} (h : b ∈ report tell seen ps) :
    ∃ p ∈ ps, ∃ before, b ∈ tell before p := by
  induction ps generalizing seen with
  | nil => cases h
  | cons p more ih =>
    rcases List.mem_append.mp h with here | later
    · exact ⟨p, List.mem_cons_self, seen, here⟩
    · obtain ⟨q, hq, found⟩ := ih later
      exact ⟨q, List.mem_cons_of_mem p hq, found⟩

theorem Segment.events_of_isToken {s : Segment} (token : s.kind.isToken = true) (front : List Char) :
    s.events front = [] := by
  obtain ⟨kind, text⟩ := s
  cases kind with
  | blank | comment => simp [Kind.isToken] at token
  | _ => rfl

theorem Placed.told_of_gap {p : Placed} (gap : p.segment.kind.isToken = false) (seen : List String) :
    p.told seen = p.segment.events p.front := by
  simp [told, outcome?, Segment.outcomeOn?_eq_none gap]

theorem Placed.lexemes_of_gap {p : Placed} (gap : p.segment.kind.isToken = false) :
    p.lexemes = [] := by
  simp [lexemes, outcome?, Segment.outcomeOn?_eq_none gap]

theorem lexemes_of_gap {gap : List Segment} (blank : ∀ g ∈ gap, g.kind.isToken = false)
    (front : List Char) : lexemes (placed front gap) = [] :=
  List.flatMap_eq_nil_iff.mpr fun _ hp => Placed.lexemes_of_gap (blank _ (mem_of_mem_placed hp))

theorem report_of_gap {gap : List Segment} (blank : ∀ g ∈ gap, g.kind.isToken = false)
    (front : List Char) (seen : List String) :
    report Placed.told seen (placed front gap) = gapEvents front gap := by
  induction gap generalizing front with
  | nil => rfl
  | cons g gap ih =>
    obtain ⟨here, later⟩ := List.forall_mem_cons.mp blank
    rw [placed, report, Placed.told_of_gap here, Placed.lexemes_of_gap here, List.append_nil,
      ih later, gapEvents_cons]

end Grammar

theorem isComment_of_mem_toldOf {seen : List String} {line : UInt32}
    {outcome : Except Fault (Token Word)} {e : Event} (h : e ∈ toldOf seen line outcome) :
    e.isComment = false := by
  cases outcome with
  | error fault => cases h
  | ok token =>
    rcases List.mem_append.mp h with h | h
    · obtain ⟨lexeme, _, rfl⟩ := List.mem_map.mp h
      rfl
    · obtain rfl := List.mem_singleton.mp h
      rfl

namespace Grammar

/-- Only comments are told of as comments. -/
theorem exists_comment_of_mem_told {seen : List String} {p : Placed} {e : Event}
    (h : e ∈ p.told seen) (comment : e.isComment = true) :
    ∃ kind closed, p.segment.kind = .comment kind closed := by
  rcases List.mem_append.mp h with here | there
  · cases same : p.segment.kind with
    | comment kind closed => exact ⟨kind, closed, rfl⟩
    | _ => simp [Segment.events, same] at here
  · cases outcome : p.outcome? with
    | none => simp [outcome] at there
    | some value =>
      rw [outcome] at there
      simp [isComment_of_mem_toldOf there] at comment

/-- The shortest comment is its opener. -/
theorem Rule.two_le_length {kind : CommentKind} {closed : Bool} {text rest : List Char}
    (h : Rule (.comment kind closed) text rest) : 2 ≤ text.length := by
  cases h <;> simp

theorem isComment_of_mem_report {front : List Char} {l : List Segment} (cuts : Cuts (textOf l) l)
    (short : (textOf l).length ≤ 1) {seen : List String} {e : Event}
    (h : e ∈ report Placed.told seen (placed front l)) : e.isComment = false := by
  rw [Bool.eq_false_iff]
  intro comment
  obtain ⟨p, hp, before, told⟩ := mem_report h
  obtain ⟨kind, closed, here⟩ := exists_comment_of_mem_told told comment
  obtain ⟨done, more, rfl, _⟩ := mem_placed_iff.mp hp
  have rule := cuts.of_append.cons_inv.1
  rw [here] at rule
  have long := rule.two_le_length
  simp only [textOf_append, textOf_cons, List.length_append] at short
  omega

/-- What the log shows of a place, with the line on which the place is. -/
def Placed.entry (p : Placed) (level : Level) (message : String) (more : List Field) : Record :=
  ⟨level, "lexis::scanner::lexer", message, ⟨"line", .number p.line⟩ :: more⟩

def newcomerEntry (lexeme : String) : Record :=
  ⟨.debug, "lexis::scanner::keywords", "interning identifier", [⟨"lexeme", .quoted lexeme⟩]⟩

/-- What the log shows of all that there is to tell of a place. -/
def Placed.log (seen : List String) (p : Placed) : List Record :=
  match p.segment.kind with
  | .blank => []
  | .comment .line _ => [p.entry .debug "skipping line comment" []]
  | .comment .block true => [p.entry .debug "skipping block comment" []]
  | .comment .block false =>
    [p.entry .debug "skipping block comment" [],
      p.entry .debug "block comment runs to end of input" []]
  | .integer | .word | .symbol =>
    match p.outcome? with
    | some (.ok token) =>
      (token.newcomer? seen).toList.map newcomerEntry ++
        [p.entry .trace "scanned" [⟨"token", .text token.display⟩]]
    | _ => []

theorem Placed.map_record_told {p : Placed} (counted : (lineAfter p.front).toNat = p.line)
    (seen : List String) : (p.told seen).map Event.record = p.log seen := by
  obtain ⟨front, kind, text⟩ := p
  unfold log entry
  rw [← counted]
  cases kind with
  | blank => rfl
  | comment kind closed => cases kind <;> cases closed <;> rfl
  | integer | word | symbol =>
    rw [told, Segment.events_of_isToken rfl]
    cases outcome : Placed.outcome? ⟨front, _, text⟩ with
    | none => simp
    | some value =>
      cases value with
      | error fault => simp [toldOf]
      | ok token =>
        simp only [toldOf, List.nil_append, Option.map_some, Option.getD_some, List.map_append,
          List.map_map]
        rfl

theorem map_report {β γ : Type} {tell : List String → Placed → List β}
    {other : List String → Placed → List γ} {f : β → γ} {ps : List Placed}
    (same : ∀ p ∈ ps, ∀ seen, (tell seen p).map f = other seen p) (seen : List String) :
    (report tell seen ps).map f = report other seen ps := by
  induction ps generalizing seen with
  | nil => rfl
  | cons p more ih =>
    obtain ⟨here, later⟩ := List.forall_mem_cons.mp same
    rw [report, report, List.map_append, here, ih later]

end Grammar

end TokenListing
