import ApiModel.Schema.Basic

/-!
# The standard options

What options are made of by the descriptor format itself.  A schema may declare these types again, with
fewer fields or more; where it does not, these are used.  Extensions add to them.

Options can also be written as a name and a value; every type of options has a list of such options,
which are uninterpreted.
-/

namespace ApiModel

/-- What options belong to. -/
inductive OptionsOwner where
  | file | message | field | oneof | extensionRange | enumeration | enumValue | service | method
  deriving DecidableEq

/-- The full name of the options' type. -/
def OptionsOwner.typeName : OptionsOwner → String
  | .file => "google.protobuf.FileOptions"
  | .message => "google.protobuf.MessageOptions"
  | .field => "google.protobuf.FieldOptions"
  | .oneof => "google.protobuf.OneofOptions"
  | .extensionRange => "google.protobuf.ExtensionRangeOptions"
  | .enumeration => "google.protobuf.EnumOptions"
  | .enumValue => "google.protobuf.EnumValueOptions"
  | .service => "google.protobuf.ServiceOptions"
  | .method => "google.protobuf.MethodOptions"

namespace StandardOptions

/-! ## Fields -/

def flag (number : Int) (name : String) : FieldDescriptor FieldType :=
  { name, number, type := .scalar .bool }

def text (number : Int) (name : String) : FieldDescriptor FieldType :=
  { name, number, type := .scalar .string }

/-- A field that holds a value of an enumeration of the standard package. -/
def choice (number : Int) (name enumName : String) : FieldDescriptor FieldType :=
  { name, number, type := .enumeration (qualifiedName "google.protobuf" enumName) }

/-- A field that holds a message of the standard package. -/
def part (number : Int) (name messageName : String) : FieldDescriptor FieldType :=
  { name, number, type := .message (qualifiedName "google.protobuf" messageName) }

def list (f : FieldDescriptor FieldType) : FieldDescriptor FieldType :=
  { f with cardinality := .repeated }

/-- The fields that all options have besides their own. -/
def withUninterpreted (fields : List (FieldDescriptor FieldType)) :
    List (FieldDescriptor FieldType) :=
  fields ++ [list (part 999 "uninterpreted_option" "UninterpretedOption")]

/-- An enumeration whose values have the given names and numbers. -/
def choices (name : String) (values : List (String × Int)) : EnumDescriptor :=
  { name, values := values.map fun (name, number) => { name, number } }

/-- An enumeration whose values are numbered from zero. -/
def counted (name : String) (values : List String) : EnumDescriptor :=
  choices name (values.zipIdx.map fun (value, i) => (value, (i : Int)))

/-! ## Types -/

def fileOptions : MessageDescriptor FieldType :=
  { name := "FileOptions"
    fields := withUninterpreted [
      text 1 "java_package", text 8 "java_outer_classname", flag 10 "java_multiple_files",
      flag 20 "java_generate_equals_and_hash", flag 27 "java_string_check_utf8",
      choice 9 "optimize_for" "FileOptions.OptimizeMode", text 11 "go_package",
      flag 16 "cc_generic_services", flag 17 "java_generic_services", flag 18 "py_generic_services",
      flag 42 "php_generic_services", flag 23 "deprecated", flag 31 "cc_enable_arenas",
      text 36 "objc_class_prefix", text 37 "csharp_namespace", text 39 "swift_prefix",
      text 40 "php_class_prefix", text 41 "php_namespace", text 44 "php_metadata_namespace",
      text 45 "ruby_package", part 50 "features" "FeatureSet"]
    enums := [choices "OptimizeMode" [("SPEED", 1), ("CODE_SIZE", 2), ("LITE_RUNTIME", 3)]] }

def messageOptions : MessageDescriptor FieldType :=
  { name := "MessageOptions"
    fields := withUninterpreted [
      flag 1 "message_set_wire_format", flag 2 "no_standard_descriptor_accessor",
      flag 3 "deprecated", flag 7 "map_entry", flag 11 "deprecated_legacy_json_field_conflicts",
      part 12 "features" "FeatureSet"] }

def fieldOptions : MessageDescriptor FieldType :=
  { name := "FieldOptions"
    fields := withUninterpreted [
      choice 1 "ctype" "FieldOptions.CType", flag 2 "packed",
      choice 6 "jstype" "FieldOptions.JSType", flag 5 "lazy", flag 15 "unverified_lazy",
      flag 3 "deprecated", flag 10 "weak", flag 16 "debug_redact",
      choice 17 "retention" "FieldOptions.OptionRetention",
      list (choice 19 "targets" "FieldOptions.OptionTargetType"),
      list (part 20 "edition_defaults" "FieldOptions.EditionDefault"),
      part 21 "features" "FeatureSet"]
    nested := [
      { name := "EditionDefault", fields := [choice 3 "edition" "Edition", text 2 "value"] }]
    enums := [
      counted "CType" ["STRING", "CORD", "STRING_PIECE"],
      counted "JSType" ["JS_NORMAL", "JS_STRING", "JS_NUMBER"],
      counted "OptionRetention" ["RETENTION_UNKNOWN", "RETENTION_RUNTIME", "RETENTION_SOURCE"],
      counted "OptionTargetType" [
        "TARGET_TYPE_UNKNOWN", "TARGET_TYPE_FILE", "TARGET_TYPE_EXTENSION_RANGE",
        "TARGET_TYPE_MESSAGE", "TARGET_TYPE_FIELD", "TARGET_TYPE_ONEOF", "TARGET_TYPE_ENUM",
        "TARGET_TYPE_ENUM_ENTRY", "TARGET_TYPE_SERVICE", "TARGET_TYPE_METHOD"]] }

def oneofOptions : MessageDescriptor FieldType :=
  { name := "OneofOptions", fields := withUninterpreted [part 1 "features" "FeatureSet"] }

def extensionRangeOptions : MessageDescriptor FieldType :=
  { name := "ExtensionRangeOptions"
    fields := withUninterpreted [
      list (part 2 "declaration" "ExtensionRangeOptions.Declaration"),
      part 50 "features" "FeatureSet",
      choice 3 "verification" "ExtensionRangeOptions.VerificationState"]
    nested := [
      { name := "Declaration"
        fields := [
          { name := "number", number := 1, type := .scalar .int32 }, text 2 "full_name",
          text 3 "type", flag 5 "reserved", flag 6 "repeated"] }]
    enums := [counted "VerificationState" ["DECLARATION", "UNVERIFIED"]] }

def enumOptions : MessageDescriptor FieldType :=
  { name := "EnumOptions"
    fields := withUninterpreted [
      flag 2 "allow_alias", flag 3 "deprecated", flag 6 "deprecated_legacy_json_field_conflicts",
      part 7 "features" "FeatureSet"] }

def enumValueOptions : MessageDescriptor FieldType :=
  { name := "EnumValueOptions"
    fields := withUninterpreted [
      flag 1 "deprecated", part 2 "features" "FeatureSet", flag 3 "debug_redact"] }

def serviceOptions : MessageDescriptor FieldType :=
  { name := "ServiceOptions"
    fields := withUninterpreted [part 34 "features" "FeatureSet", flag 33 "deprecated"] }

def methodOptions : MessageDescriptor FieldType :=
  { name := "MethodOptions"
    fields := withUninterpreted [
      flag 33 "deprecated", choice 34 "idempotency_level" "MethodOptions.IdempotencyLevel",
      part 35 "features" "FeatureSet"]
    enums := [
      counted "IdempotencyLevel" ["IDEMPOTENCY_UNKNOWN", "NO_SIDE_EFFECTS", "IDEMPOTENT"]] }

/-- An option that is written as a name and a value. -/
def uninterpretedOption : MessageDescriptor FieldType :=
  { name := "UninterpretedOption"
    fields := [
      list (part 2 "name" "UninterpretedOption.NamePart"), text 3 "identifier_value",
      { name := "positive_int_value", number := 4, type := .scalar .uint64 },
      { name := "negative_int_value", number := 5, type := .scalar .int64 },
      { name := "double_value", number := 6, type := .scalar .double },
      { name := "string_value", number := 7, type := .scalar .bytes }, text 8 "aggregate_value"]
    nested := [
      { name := "NamePart"
        fields := [
          { name := "name_part", number := 1, cardinality := .required, type := .scalar .string },
          { name := "is_extension", number := 2, cardinality := .required, type := .scalar .bool }] }] }

def featureSet : MessageDescriptor FieldType :=
  { name := "FeatureSet"
    fields := [
      choice 1 "field_presence" "FeatureSet.FieldPresence",
      choice 2 "enum_type" "FeatureSet.EnumType",
      choice 3 "repeated_field_encoding" "FeatureSet.RepeatedFieldEncoding",
      choice 4 "utf8_validation" "FeatureSet.Utf8Validation",
      choice 5 "message_encoding" "FeatureSet.MessageEncoding",
      choice 6 "json_format" "FeatureSet.JsonFormat"]
    enums := [
      counted "FieldPresence" ["FIELD_PRESENCE_UNKNOWN", "EXPLICIT", "IMPLICIT", "LEGACY_REQUIRED"],
      counted "EnumType" ["ENUM_TYPE_UNKNOWN", "OPEN", "CLOSED"],
      counted "RepeatedFieldEncoding" ["REPEATED_FIELD_ENCODING_UNKNOWN", "PACKED", "EXPANDED"],
      counted "Utf8Validation" ["UTF8_VALIDATION_UNKNOWN", "NONE", "VERIFY"],
      counted "MessageEncoding" ["MESSAGE_ENCODING_UNKNOWN", "LENGTH_PREFIXED", "DELIMITED"],
      counted "JsonFormat" ["JSON_FORMAT_UNKNOWN", "ALLOW", "LEGACY_BEST_EFFORT"]] }

/-- The file that declares the types of options. -/
def declarations : FileDescriptor FieldType :=
  { name := "google/protobuf/descriptor.proto"
    package := "google.protobuf"
    messages := [
      fileOptions, messageOptions, fieldOptions, oneofOptions, extensionRangeOptions, enumOptions,
      enumValueOptions, serviceOptions, methodOptions, uninterpretedOption, featureSet]
    enums := [
      choices "Edition" [
        ("EDITION_UNKNOWN", 0), ("EDITION_PROTO2", 998), ("EDITION_PROTO3", 999),
        ("EDITION_2023", 1000), ("EDITION_1_TEST_ONLY", 1), ("EDITION_2_TEST_ONLY", 2),
        ("EDITION_99997_TEST_ONLY", 99997), ("EDITION_99998_TEST_ONLY", 99998),
        ("EDITION_99999_TEST_ONLY", 99999)]] }

end StandardOptions

/-- The schema of the standard options. -/
def Schema.standard : Schema := .ofResolved [StandardOptions.declarations]

end ApiModel
