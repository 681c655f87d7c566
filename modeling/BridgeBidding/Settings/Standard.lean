import BridgeBidding.Settings

/-!
# The standard settings document

The document that comes with the built-in conventions: the trainee sits south in every one of them,
and the conventions whose hands are rare may shuffle more often.
-/

set_option autoImplicit false
set_option relaxedAutoImplicit false

namespace BridgeBidding.SettingsDocument

/-- Where settings documents are kept. -/
def standardFile : String := "config/conventions.yaml"

/-- The trainer section of every built-in convention. -/
def southTrainee : String × Value := ("trainer", .record [("trainee_seat", .text "S")])

/-- The deal section of a convention that may shuffle so many times. -/
def shuffles (attempts : Int) : String × Value :=
  ("deal", .record [("max_attempts", .int attempts)])

/-- The standard document. -/
def standard : SettingsDocument where
  file := standardFile
  content := .record [("conventions", .record [
    ("stayman", .record [southTrainee]),
    ("gerber", .record [southTrainee, shuffles 50000]),
    ("bergen-raises", .record [southTrainee]),
    ("landy", .record [southTrainee]),
    ("dont", .record [southTrainee, shuffles 20000]),
    ("sayc", .record [southTrainee])])]

end BridgeBidding.SettingsDocument
