/-!
# The bytes of JSON

The bytes that JSON gives a meaning to, by name, and the words it knows.
-/

namespace ContractHost.Json.Byte

/-- The byte of `"`. -/
abbrev quote : UInt8 := 34

/-- The byte of a backslash. -/
abbrev backslash : UInt8 := 92

/-- The byte of `[`. -/
abbrev openBracket : UInt8 := 91

/-- The byte of `]`. -/
abbrev closeBracket : UInt8 := 93

/-- The byte of an opening brace. -/
abbrev openBrace : UInt8 := 123

/-- The byte of a closing brace. -/
abbrev closeBrace : UInt8 := 125

/-- The byte of `,`. -/
abbrev comma : UInt8 := 44

/-- The byte of `:`. -/
abbrev colon : UInt8 := 58

/-- The byte of `-`. -/
abbrev minus : UInt8 := 45

/-- The byte of `+`. -/
abbrev plus : UInt8 := 43

/-- The byte of `.`. -/
abbrev point : UInt8 := 46

/-- The byte of `0`. -/
abbrev zero : UInt8 := 48

/-- The byte of `e`, before an exponent. -/
abbrev lowerE : UInt8 := 101

/-- The byte of `E`, before an exponent. -/
abbrev upperE : UInt8 := 69

/-- The byte of `u`, before a UTF-16 unit. -/
abbrev unit : UInt8 := 117

/-- The byte of `n`, with which `null` starts. -/
abbrev n : UInt8 := 110

/-- What follows the `n` of `null`. -/
abbrev ull : List UInt8 := [117, 108, 108]

/-- What follows the `t` of `true`. -/
abbrev rue : List UInt8 := [114, 117, 101]

/-- What follows the `f` of `false`. -/
abbrev alse : List UInt8 := [97, 108, 115, 101]

end ContractHost.Json.Byte
