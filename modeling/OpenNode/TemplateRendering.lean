import OpenNode.ConfigEdits
import OpenNode.Lib.Dict
import OpenNode.Lib.Replacement

namespace OpenNode.Templates

open Assoc List Replacement

def openBrace : Char := '\x7b'

def closeBrace : Char := '\x7d'

/-- The text of a placeholder. -/
def placeholder (key : String) : List Char :=
  openBrace :: (key.toList ++ [closeBrace])

section Context

/-- The columns that a context takes from the records of a credential. -/
structure TemplateRecords where
  username : String
  userEmail : Option String := none
  displayName : Option String := none
  credentialEmail : String
  plan : Option (String × String) := none
  nodeId : String
  nodeName : String
  protocol : String
  serverId : String
  serverName : String
  serverHost : String
  credential : Agent.Fields := []

/-- `value or default`. -/
def orElse (value : Option String) (default : String) : String :=
  match value with
  | none | some "" => default
  | some text => text

/-- `str(value)` of a text, a number or a truth value. -/
def scalar (float : Rat → String) : Json → Option String
  | .str text => some text
  | .bool value => some (if value then "True" else "False")
  | .int value => some (toString value)
  | .float value => some (float value)
  | _ => none

def sharedKeys : List String := ["id", "password", "auth", "psk", "user", "pass"]

/-- The turn of a field of the credential. -/
def addField (float : Rat → String) (context : List (String × String)) (field : String × Json) :
    List (String × String) :=
  match scalar float field.2 with
  | none => context
  | some text =>
    let named := put ("credential_" ++ field.1) text context
    if field.1 ∈ sharedKeys then put field.1 text named else named

def fixedContext (records : TemplateRecords) : List (String × String) :=
  [("username", records.username), ("user_email", orElse records.userEmail records.username),
   ("display_name", orElse records.displayName records.username), ("client_email", records.credentialEmail),
   ("plan_id", (records.plan.map Prod.fst).getD ""), ("plan_name", (records.plan.map Prod.snd).getD ""),
   ("node_id", records.nodeId), ("node_name", records.nodeName), ("protocol", records.protocol),
   ("server_id", records.serverId), ("server_name", records.serverName), ("server_domain", records.serverHost),
   ("server_host", records.serverHost)]

theorem addField_nodup {float : Rat → String} {context : List (String × String)}
    (distinct : (context.map Prod.fst).Nodup)
    (field : String × Json) : ((addField float context field).map Prod.fst).Nodup := by
  unfold addField
  split
  · exact distinct
  · dsimp only
    split
    · exact put_nodup (put_nodup distinct _ _) _ _
    · exact put_nodup distinct _ _

def templateContext (float : Rat → String) (records : TemplateRecords) : Dict String String where
  entries := records.credential.foldl (addField float) (fixedContext records)
  nodup := by
    have start : ((fixedContext records).map Prod.fst).Nodup := by
      simp [fixedContext]
    generalize fixedContext records = context at start
    induction records.credential generalizing context with
    | nil => exact start
    | cons field rest ih => exact ih _ (addField_nodup start field)

end Context

section Rendering

/-- The turn of an entry of the context. -/
def replaceEntry (rendered : List Char) (entry : String × String) : List Char :=
  replace id (placeholder entry.1) entry.2.toList rendered

def renderText (context : List (String × String)) (text : String) : String :=
  String.ofList (context.foldl replaceEntry text.toList)

mutual

/-- A document with its texts mapped. Keys are kept. -/
def mapTexts (f : String → String) : Json → Json
  | .str text => .str (f text)
  | .arr items => .arr (mapItems f items)
  | .obj fields => .obj (mapFields f fields)
  | .null => .null
  | .bool value => .bool value
  | .int value => .int value
  | .float value => .float value

def mapItems (f : String → String) : List Json → List Json
  | [] => []
  | item :: rest => mapTexts f item :: mapItems f rest

def mapFields (f : String → String) : List (String × Json) → List (String × Json)
  | [] => []
  | (key, value) :: rest => (key, mapTexts f value) :: mapFields f rest

end

mutual

/-- The texts of a document. -/
def texts : Json → List String
  | .str text => [text]
  | .arr items => textsOfItems items
  | .obj fields => textsOfFields fields
  | _ => []

def textsOfItems : List Json → List String
  | [] => []
  | item :: rest => texts item ++ textsOfItems rest

def textsOfFields : List (String × Json) → List String
  | [] => []
  | (_, value) :: rest => texts value ++ textsOfFields rest

end

def renderTemplate (context : Dict String String) (value : Json) : Json :=
  mapTexts (renderText context.entries) value

variable {f g : String → String}

mutual

theorem mapTexts_congr (value : Json) (same : ∀ text ∈ texts value, f text = g text) :
    mapTexts f value = mapTexts g value := by
  match value with
  | .str text => exact congrArg Json.str (same text (mem_singleton_self _))
  | .arr items => exact congrArg Json.arr (mapItems_congr items same)
  | .obj fields => exact congrArg Json.obj (mapFields_congr fields same)
  | .null | .bool _ | .int _ | .float _ => rfl

theorem mapItems_congr (items : List Json) (same : ∀ text ∈ textsOfItems items, f text = g text) :
    mapItems f items = mapItems g items := by
  match items with
  | [] => rfl
  | item :: rest =>
    rw [mapItems, mapItems, mapTexts_congr item fun text here => same text (mem_append_left _ here),
      mapItems_congr rest fun text here => same text (mem_append_right _ here)]

theorem mapFields_congr (fields : List (String × Json)) (same : ∀ text ∈ textsOfFields fields, f text = g text) :
    mapFields f fields = mapFields g fields := by
  match fields with
  | [] => rfl
  | (key, value) :: rest =>
    rw [mapFields, mapFields, mapTexts_congr value fun text here => same text (mem_append_left _ here),
      mapFields_congr rest fun text here => same text (mem_append_right _ here)]

end

end Rendering

section Tokens

/-- A name without braces. -/
def Plain (name : String) : Prop := openBrace ∉ name.toList ∧ closeBrace ∉ name.toList

instance (name : String) : Decidable (Plain name) := inferInstanceAs (Decidable (_ ∧ _))

/-- A template is a sequence of characters and of holes for values. -/
inductive Token where
  | char (c : Char)
  | hole (name : String) (plain : Plain name)

def Token.source : Token → List Char
  | .char c => [c]
  | .hole name _ => placeholder name

def literal (text : List Char) : List Token := text.map .char

/-- The tokens of a text, after an open brace and the characters that follow it, if any. -/
def tokensFrom : Option (List Char) → List Char → List Token
  | none, [] => []
  | some name, [] => literal (openBrace :: name)
  | none, c :: rest => if c = openBrace then tokensFrom (some []) rest else .char c :: tokensFrom none rest
  | some name, c :: rest =>
    if c = openBrace then literal (openBrace :: name) ++ tokensFrom (some []) rest
    else if c = closeBrace then
      (if plain : Plain (String.ofList name) then [.hole (String.ofList name) plain]
      else literal (openBrace :: name ++ [closeBrace])) ++ tokensFrom none rest
    else tokensFrom (some (name ++ [c])) rest

def tokens (text : List Char) : List Token := tokensFrom none text

/-- What has been read of an open placeholder. -/
def opened : Option (List Char) → List Char
  | none => []
  | some name => openBrace :: name

theorem literal_source (text : List Char) : (literal text).flatMap Token.source = text := by
  induction text with
  | nil => rfl
  | cons c rest ih => exact congrArg (c :: ·) ih

theorem tokensFrom_source (pending : Option (List Char)) (text : List Char) :
    (tokensFrom pending text).flatMap Token.source = opened pending ++ text := by
  induction text generalizing pending with
  | nil =>
    cases pending with
    | none => rfl
    | some name => rw [tokensFrom, literal_source, opened, append_nil]
  | cons c rest ih =>
    cases pending with
    | none =>
      rw [tokensFrom]
      split
      · rename_i same
        rw [ih, same]
        rfl
      · rw [flatMap_cons, ih]
        rfl
    | some name =>
      rw [tokensFrom]
      split
      · rename_i same
        rw [flatMap_append, literal_source, ih, same]
        rfl
      · split
        · rename_i same
          rw [flatMap_append, ih, same]
          split
          · simp [Token.source, placeholder, opened]
          · rw [literal_source]
            simp [opened]
        · rw [ih]
          simp [opened]

theorem tokens_source (text : List Char) : (tokens text).flatMap Token.source = text :=
  tokensFrom_source none text

end Tokens

end OpenNode.Templates
