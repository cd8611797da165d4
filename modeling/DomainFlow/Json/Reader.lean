import DomainFlow.Json.Token

/-!
Reading a JSON text. The tokens are taken one after the other, while a stack remembers the arrays and
objects that are still open, so nesting is limited by nothing but the length of the text.
-/
namespace DomainFlow

namespace Json

/-- An open array or object, with what it holds so far, last first. -/
inductive Frame where
  | array (before : List Json)
  | object (before : List (QuotedText × Json)) (key : QuotedText)

inductive Stage where
  | awaitValue (frames : List Frame)
  | awaitElement (frames : List Frame)
  | awaitFirstKey (frames : List Frame)
  | awaitKey (before : List (QuotedText × Json)) (frames : List Frame)
  | awaitColon (before : List (QuotedText × Json)) (key : QuotedText) (frames : List Frame)
  | complete (value : Json) (frames : List Frame)

namespace Stage

def startValue? (frames : List Frame) : JsonToken → Option Stage
  | .null => some (.complete .null frames)
  | .bool value => some (.complete (.bool value) frames)
  | .number numeral => some (.complete (.number numeral) frames)
  | .string quoted => some (.complete (.string quoted) frames)
  | .openBracket => some (.awaitElement frames)
  | .openBrace => some (.awaitFirstKey frames)
  | _ => none

def afterValue? (value : Json) : List Frame → JsonToken → Option Stage
  | .array before :: frames, .comma => some (.awaitValue (.array (value :: before) :: frames))
  | .array before :: frames, .closeBracket =>
    some (.complete (.array (value :: before).reverse) frames)
  | .object before key :: frames, .comma => some (.awaitKey ((key, value) :: before) frames)
  | .object before key :: frames, .closeBrace =>
    some (.complete (.object ((key, value) :: before).reverse) frames)
  | _, _ => none

def step? : Stage → JsonToken → Option Stage
  | .awaitValue frames, token => startValue? frames token
  | .awaitElement frames, .closeBracket => some (.complete (.array []) frames)
  | .awaitElement frames, token => startValue? (.array [] :: frames) token
  | .awaitFirstKey frames, .closeBrace => some (.complete (.object []) frames)
  | .awaitFirstKey frames, .string key => some (.awaitColon [] key frames)
  | .awaitFirstKey _, _ => none
  | .awaitKey before frames, .string key => some (.awaitColon before key frames)
  | .awaitKey _ _, _ => none
  | .awaitColon before key frames, .colon => some (.awaitValue (.object before key :: frames))
  | .awaitColon _ _ _, _ => none
  | .complete value frames, token => afterValue? value frames token

def result? : Stage → Option Json
  | .complete value [] => some value
  | _ => none

end Stage

def ofTokens? (tokens : List JsonToken) : Option Json :=
  (tokens.foldlM Stage.step? (.awaitValue [])).bind Stage.result?

def read? (text : String) : Option Json := (JsonToken.scan text).bind ofTokens?

end Json

end DomainFlow
