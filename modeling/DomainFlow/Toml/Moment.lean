import DomainFlow.Toml.Scalar

/-!
Moments that are given by tables. A table that starts with a certain key stands for a date, a time of day
or both, which the value of the key spells.
-/
namespace DomainFlow

namespace Toml

def momentKey : String := "$__toml_private_datetime"

/-- Whether a text is a date, a time of day or both, as a document may give them. -/
def spellsMoment (text : String) : Bool := (moment? text.toList).any fun (_, rest) => rest.isEmpty

def standsForMoment (entries : TomlTable) : Bool := (entries.head?.map Prod.fst) == some momentKey

def isMomentText : Toml → Bool
  | .text value => spellsMoment value
  | _ => false

mutual

/-- Whether every table within a value that stands for a moment gives one. -/
def hasSoundMoments : Toml → Bool
  | .array elements => haveSoundMoments elements
  | .table _ entries => isSoundTable entries
  | .tables elements => areSoundTables elements
  | _ => true

def haveSoundMoments : List Toml → Bool
  | [] => true
  | element :: rest => element.hasSoundMoments && haveSoundMoments rest

/-- What follows the moment for which a table stands does not count. -/
def isSoundTable : List (String × Toml) → Bool
  | [] => true
  | (key, value) :: rest =>
    if key == momentKey then isMomentText value else value.hasSoundMoments && areSoundEntries rest

def areSoundEntries : List (String × Toml) → Bool
  | [] => true
  | (_, value) :: rest => value.hasSoundMoments && areSoundEntries rest

def areSoundTables : List (List (String × Toml)) → Bool
  | [] => true
  | entries :: rest => isSoundTable entries && areSoundTables rest

end

end Toml

end DomainFlow
