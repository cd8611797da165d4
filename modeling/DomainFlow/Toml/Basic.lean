/-!
TOML values. A table remembers how it was written, because that decides what may still be added to it.
-/
namespace DomainFlow

/-- How a table was written: under a header of its own, only as part of longer headers, by dotted keys,
or between braces. -/
inductive TableForm where
  | header
  | implied
  | dotted
  | inline
deriving DecidableEq, Repr

/-- A value of TOML. Numbers with a fraction or an exponent, and dates and times, are kept as they were
written. -/
inductive Toml where
  | text (value : String)
  | truth (value : Bool)
  | integer (value : Int)
  | real (source : String)
  | moment (source : String)
  | array (elements : List Toml)
  | table (form : TableForm) (entries : List (String × Toml))
  | tables (elements : List (List (String × Toml)))

/-- The keys of a table with their values, in the order in which they were written. -/
abbrev TomlTable := List (String × Toml)

end DomainFlow
