/-! Values of the format that settings are written in. -/

namespace SourceOutline.Toml

/-- A value. -/
inductive Value where
  /-- A text. -/
  | string (text : String)
  /-- A whole number of sixty-four bits with sign. -/
  | integer (value : Int)
  /-- A truth value. -/
  | boolean (value : Bool)
  /-- A number with a fraction or an exponent, which no setting has. -/
  | float
  /-- A date or a time, which no setting has. -/
  | moment
  /-- A sequence of values. -/
  | array (items : List Value)
  /-- Values under names. -/
  | table (entries : List (String × Value))

/-- One line of a document. -/
inductive Line where
  /-- A value under a path of names. -/
  | entry (path : List String) (value : Value)
  /-- The header of a table. -/
  | header (path : List String)
  /-- The header of one more table in an array of tables. -/
  | arrayHeader (path : List String)

end SourceOutline.Toml
