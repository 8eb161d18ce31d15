import TokenListing.Proofs.Command.Ending
import TokenListing.Proofs.Text.Lines
import TokenListing.Proofs.Tokenizer.TooLarge

set_option autoImplicit false

/-!
Where a run that fails sends its reader. The tokenizer counts lines by line feeds alone, the location
by all ends of lines. They differ by the carriage returns that stand alone in front of the literal, and
the location leads to the literal itself.
-/

namespace TokenListing

open Grammar Text

theorem Text.placeOf_eq {source : String} {front run back : List Char} (nonempty : run ≠ [])
    (split : source.toList = front ++ run ++ back) :
    placeOf source (byteLength front) = Place.start.behind front := by
  obtain ⟨c, more, rfl⟩ := List.exists_cons_of_ne_nil nonempty
  have positive := c.utf8Size_pos
  rw [placeOf, split, List.append_assoc, firstBytes_byteLength_append, List.cons_append, firstBytes,
    if_neg (by omega), List.append_nil]

theorem Text.ne_end_of_isDigit {c : Char} (digit : c.isDigit = true) : c ≠ '\n' ∧ c ≠ '\r' := by
  constructor <;> rintro rfl <;> cases digit

namespace Command

variable {env : Environment} {arguments : List String} {fault : Fault}

theorem decode_eq_ok_iff {content : Except SystemError ByteArray} {source : String} :
    decode content = .ok source ↔ content = .ok source.toByteArray := by
  cases content with
  | error error => simp [decode]
  | ok bytes =>
    rw [Except.ok.injEq, @eq_comm _ bytes, ← fromUTF8?_eq_some_iff, decode]
    cases String.fromUTF8? bytes <;> simp

theorem exists_of_list_faulty {format : Format} {name source : String}
    (failed : list format name source = .faulty fault) :
    ∃ flaw, rows source = .error flaw ∧ fault = flaw.attach ⟨name, source⟩ := by
  unfold list at failed
  split at failed
  · next flaw result =>
    cases failed
    exact ⟨flaw, result, rfl⟩
  · cases format <;> cases failed

/-- A run has its fault from a text that was read and could not be cut into rows. -/
theorem exists_of_faulty (failed : (run env arguments).ending = .faulty fault) :
    ∃ options source flaw, Options.ofArguments arguments = .ok options ∧
      env.content options = .ok source.toByteArray ∧ rows source = .error flaw ∧
      fault = flaw.attach ⟨options.origin.name, source⟩ := by
  cases parses : Options.ofArguments arguments with
  | error reason => cases reason <;> simp [run, parses] at failed
  | ok options =>
    rw [run_of_parses parses, runOptions] at failed
    cases filter : env.filter? options with
    | none => simp [filter] at failed
    | some filter =>
      cases read : decode (env.content options) with
      | error error => simp [filter, env.source_eq, read] at failed
      | ok source =>
        have listed : list options.format options.origin.name source = .faulty fault := by
          simpa [filter, env.source_eq, read] using failed
        obtain ⟨flaw, result, same⟩ := exists_of_list_faulty listed
        exact ⟨options, source, flaw, rfl, decode_eq_ok_iff.mp read, result, same⟩

/-- The location of a run that fails leads to the literal at which the text could not be cut. -/
theorem location_leadsTo (failed : (run env arguments).ending = .faulty fault) :
    ∃ options source literal line front back, Options.ofArguments arguments = .ok options ∧
      env.content options = .ok source.toByteArray ∧
      source.toList = front ++ literal.toList ++ back ∧
      literal.toList ≠ [] ∧ (∀ c ∈ literal.toList, c.isDigit = true) ∧
      rows source = .error (.tooLarge literal line (byteLength front) .placeholder) ∧
      fault = .tooLarge literal line (byteLength front) ⟨options.origin.name, source⟩ ∧
      (source.toList.count '\n' < UInt32.size - 1 →
        ∃ place : Place,
          (run env arguments).ending.location? = some (options.origin.name ++ place.behindName) ∧
          place.LeadsTo line.toNat front literal.toList back) := by
  obtain ⟨options, source, flaw, parses, found, result, rfl⟩ := exists_of_faulty failed
  obtain ⟨p, hp, outcome⟩ := Tokenizer.exists_placed_of_rows result
  obtain ⟨large, rfl⟩ := Segment.eq_tooLarge_of_outcomeOn? outcome
  obtain ⟨back, split, nonempty, digits, _⟩ := exists_digits_of_tooLarge hp large
  refine ⟨options, source, String.ofList p.segment.text, lineAfter p.front, p.front, back, parses,
    found, by simpa using split, by simpa using nonempty, by simpa using digits, result, rfl,
    fun few => ⟨Place.start.behind p.front, ?_, ?_⟩⟩
  · simp [failed, Ending.location?, Fault.attach, Fault.location?, placeOf_eq nonempty split,
      Place.behindName, String.append_assoc]
  · rw [List.append_assoc] at split
    rw [toNat_lineAfter_of_append split few, String.toList_ofList]
    exact Place.leadsTo_behind nonempty (fun c hc => ne_end_of_isDigit (digits c hc)) back

/-- Behind a carriage return that stands alone, one in a pair and one on the wrong side of a line feed. -/
theorem location_leadsTo_returns :
    (run (.everywhere "é\ra\r\n\n\rü 2147483648;\r") []).ending.location? = some "<stdin>:5:4" ∧
      ∃ place : Place,
        (run (.everywhere "é\ra\r\n\n\rü 2147483648;\r") []).ending.location? =
          some ("<stdin>" ++ place.behindName) ∧
        place.LeadsTo 3 "é\ra\r\n\n\rü ".toList "2147483648".toList ";\r".toList := by
  have failed : (run (.everywhere "é\ra\r\n\n\rü 2147483648;\r") []).ending =
      .faulty (.tooLarge "2147483648" 3 11 ⟨"<stdin>", "é\ra\r\n\n\rü 2147483648;\r"⟩) := by
    decide +kernel
  refine ⟨by rw [failed]; decide, ?_⟩
  obtain ⟨options, source, literal, line, front, back, _, _, split, _, _, _, same, leads⟩ :=
    location_leadsTo failed
  rw [Fault.tooLarge.injEq, NamedText.mk.injEq] at same
  obtain ⟨rfl, rfl, offset, name, rfl⟩ := same
  have here : cut? 11 "é\ra\r\n\n\rü 2147483648;\r".toList =
      some ("é\ra\r\n\n\rü ".toList, "2147483648".toList ++ ";\r".toList) := by decide
  rw [split, offset, List.append_assoc, cut?_byteLength_append] at here
  obtain ⟨rfl, rest⟩ := Prod.mk.inj (Option.some.inj here)
  obtain rfl := List.append_cancel_left rest
  obtain ⟨place, location, leadsTo⟩ := leads (by decide)
  exact ⟨place, by rw [location, name], leadsTo⟩

end Command

end TokenListing
