import Dispatch.Context
import Dispatch.Proofs.Json.Written
import Dispatch.Proofs.Text.Utf8
import Dispatch.Router
import Mathlib.Tactic

/-!
# Envelopes are read back

An envelope is read back from its text, whatever its code and its message hold,
if its status has 16 bits.  This is so of the envelope of every failure, and of
every envelope that was itself read, however that text was laid out.
-/

namespace Dispatch
namespace Envelope

/-- What the text of an envelope stands for. -/
def value (envelope : Envelope) : JsonValue :=
  .object [(some "error", .object [
    (some "code", .string envelope.code),
    (some "message", .string envelope.message),
    (some "status", .number (toString envelope.status))])]

section

open JsonValue (quote)

variable {envelope : Envelope} {text : String}

theorem toList_toJson (envelope : Envelope) :
    envelope.toJson.toList =
      '{' :: ((quote "error").toList ++ ':' :: '{' ::
        ((quote "code").toList ++ ':' :: ((quote envelope.code).toList ++ ',' ::
        ((quote "message").toList ++ ':' ::
          ((quote envelope.message).toList ++ ',' ::
        ((quote "status").toList ++ ':' ::
          ((toString envelope.status).toList ++ ['}', '}']))))))) := by
  have hname : ∀ name ∈ ["error", "code", "message", "status"],
      (quote name).toList = '"' :: (name.toList ++ ['"']) := by
    simp [JsonValue.toList_quote, JsonValue.escapeChar]
  rw [hname "error" (by decide), hname "code" (by decide),
    hname "message" (by decide), hname "status" (by decide)]
  unfold toJson
  simp only [String.toList_append, String.reduceToList, List.append_assoc,
    List.cons_append, List.nil_append]

theorem readValue_toJson (envelope : Envelope) (depth : Nat) :
    JsonValue.readValue (depth + 7) envelope.toJson.toList =
      some (envelope.value, []) := by
  have hstatus : JsonValue.readMembers (depth + 2)
      ((quote "status").toList ++ ':' ::
        ((toString envelope.status).toList ++ ['}', '}'])) =
      some ([(some "status", .number (toString envelope.status))], ['}']) := by
    apply JsonValue.readMembers_last
    apply JsonValue.readValue_toString
    simp [JsonValue.EndsDecimal]
  have hmessage := JsonValue.readMembers_more "message"
    (JsonValue.readValue_quote (depth + 1) envelope.message _) hstatus
  have hcode := JsonValue.readMembers_more "code"
    (JsonValue.readValue_quote (depth + 2) envelope.code _) hmessage
  have herror := JsonValue.readMembers_last "error"
    (JsonValue.readValue_object hcode)
  rw [toList_toJson]
  exact JsonValue.readValue_object herror

theorem parse?_toJson_eq_value (envelope : Envelope) :
    JsonValue.parse? envelope.toJson = some envelope.value := by
  have hlength : 7 ≤ 2 * envelope.toJson.toList.length + 2 := by
    rw [toList_toJson]
    simp only [List.length_cons, List.length_append]
    omega
  obtain ⟨depth, hdepth⟩ := Nat.exists_eq_add_of_le' hlength
  unfold JsonValue.parse?
  dsimp only
  rw [hdepth, readValue_toJson]
  rfl

theorem status?_toString {status : Nat} (hstatus : status < 65536) :
    status? (.number (toString status)) = some status := by
  have hdigits : (toString status).toList.all Char.isDigit = true := by
    rw [JsonValue.toList_toString, List.all_eq_true]
    intro c hmem
    exact Nat.isDigit_of_mem_toDigits (by decide) le_rfl hmem
  have hvalue : (toString status).toList.foldl
      (fun value c => value * 10 + (c.toNat - '0'.toNat)) 0 = status := by
    have hread := Nat.ofDigitChars_ten_toDigits (n := status)
    rw [Nat.ofDigitChars_eq_foldl] at hread
    rw [JsonValue.toList_toString]
    simpa only [Nat.mul_comm] using hread
  simp only [status?, hdigits, hvalue, hstatus, if_true]

theorem ofJson?_value (hstatus : envelope.status < 65536) :
    ofJson? envelope.value = some envelope := by
  have hread : status? (.number envelope.status.repr) = some envelope.status :=
    status?_toString hstatus
  simp [value, ofJson?, ofDetail?, member?, ofFields, text?, hread]

theorem parse?_toJson (hstatus : envelope.status < 65536) :
    parse? envelope.toJson = some envelope := by
  rw [parse?, parse?_toJson_eq_value, Option.bind_some, ofJson?_value hstatus]

theorem lt_of_status? {value : JsonValue} {status : Nat}
    (hread : status? value = some status) : status < 65536 := by
  unfold status? at hread
  split at hread
  · dsimp only at hread
    split_ifs at hread with _ hbound
    rwa [← Option.some.inj hread]
  · contradiction

theorem status_lt_of_ofFields {code message status : JsonValue}
    (hread : ofFields code message status = some envelope) :
    envelope.status < 65536 := by
  simp only [ofFields, Option.bind_eq_bind, Option.bind_eq_some_iff,
    Option.pure_def, Option.some.injEq] at hread
  obtain ⟨_, _, _, _, status, hstatus, rfl⟩ := hread
  exact lt_of_status? hstatus

theorem status_lt_of_ofDetail? {value : JsonValue}
    (hread : ofDetail? value = some envelope) : envelope.status < 65536 := by
  unfold ofDetail? at hread
  split at hread
  · exact status_lt_of_ofFields hread
  · split_ifs at hread
    · contradiction
    · simp only [Option.bind_eq_bind, Option.bind_eq_some_iff] at hread
      obtain ⟨code, _, message, _, status, _, hfields⟩ := hread
      exact status_lt_of_ofFields hfields
  · contradiction

theorem status_lt_of_ofJson? {value : JsonValue}
    (hread : ofJson? value = some envelope) : envelope.status < 65536 := by
  unfold ofJson? at hread
  split at hread
  · exact status_lt_of_ofDetail? hread
  · split_ifs at hread
    · contradiction
    · simp only [Option.bind_eq_bind, Option.bind_eq_some_iff] at hread
      obtain ⟨detail, _, hdetail⟩ := hread
      exact status_lt_of_ofDetail? hdetail
  · contradiction

theorem status_lt_of_parse? (hparsed : parse? text = some envelope) :
    envelope.status < 65536 := by
  obtain ⟨value, _, hvalue⟩ := Option.bind_eq_some_iff.mp hparsed
  exact status_lt_of_ofJson? hvalue

theorem status_ofFailure_lt (failure : Failure) :
    (ofFailure failure).status < 65536 := by
  have hdigits : failure.status.code ≤ 999 := failure.status.three_digits.2
  change failure.status.code < 65536
  omega

end

/-! ## Shown failures -/

/-- A handler's own body under the status of the failure is kept. -/
theorem showFailure_cases {ε : Type} (exchange : Exchange ε)
    (failure : Failure) :
    (∃ message, failure = .http exchange.status message) ∧
        exchange.responseBody ≠ [] ∧
        exchange.showFailure failure = exchange ∨
      (exchange.showFailure failure).responseBody =
        Text.utf8 (ofFailure failure).toJson := by
  have hbody : ∀ json, (exchange.respond failure.status .json
      (Text.utf8 json)).responseBody = Text.utf8 json := fun _ => rfl
  unfold Exchange.showFailure
  cases failure with
  | http status message =>
      dsimp only
      split_ifs with hkept
      · obtain ⟨rfl, hkept⟩ := hkept
        exact Or.inl ⟨⟨message, rfl⟩, hkept, rfl⟩
      · exact Or.inr (hbody _)
  | _ => exact Or.inr (hbody _)

/-- What the router writes for a failure is read back as the envelope of that
failure, under its status, unless a handler wrote a body under that status
itself.  And whatever text an envelope was read from, writing it and reading it
again gives the same envelope. -/
theorem parse?_written {ε σ : Type} (context : Context ε σ) (outside : σ)
    (failure : Failure) :
    let shown := (context.perform outside
      (ErrorHandler.showing failure)).context.exchange
    ((∃ message, failure = .http context.exchange.status message) ∧
          context.exchange.responseBody ≠ [] ∧ shown = context.exchange ∨
        ∃ json, Text.ofUtf8? shown.responseBody = some json ∧
          parse? json = some (ofFailure failure)) ∧
      (ofFailure failure).status = failure.status.code ∧
      ∀ text envelope, parse? text = some envelope →
        parse? envelope.toJson = some envelope := by
  intro shown
  have hshown : shown = context.exchange.showFailure failure := rfl
  refine ⟨?_, rfl, ?_⟩
  · rcases showFailure_cases context.exchange failure with hkept | hwritten
    · exact Or.inl hkept
    · refine Or.inr ⟨(ofFailure failure).toJson, ?_, ?_⟩
      · rw [hshown, hwritten, Text.ofUtf8?_utf8]
      · exact parse?_toJson (status_ofFailure_lt failure)
  · intro text envelope hparsed
    exact parse?_toJson (status_lt_of_parse? hparsed)

/-- Members in another order, one that is passed over, and a character that is
escaped as a surrogate pair. -/
theorem parse?_written_of_reordered :
    let text :=
      " \x7b\"at\":[1,null],\"error\":\x7b\"status\":404,\"message\":" ++
        "\"\\ud83d\\ude00\\u0001\\/\",\"code\":\"LOST\"\x7d\x7d\n"
    let envelope : Envelope :=
      { code := "LOST", message := "😀\x01/", status := 404 }
    parse? text = some envelope ∧ parse? envelope.toJson = some envelope := by
  intro text envelope
  have hparsed : parse? text = some envelope := by decide +kernel
  have hwritten := parse?_written (.blank : Context Unit Unit) ()
    (.http .notFound "lost")
  exact ⟨hparsed, hwritten.2.2 text envelope hparsed⟩

end Envelope
end Dispatch
