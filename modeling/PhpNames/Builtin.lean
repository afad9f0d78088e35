import PhpNames.Text.Basic

/-!
Classes, interfaces and enumerations that PHP and its bundled extensions bring along. They have no
namespace.
-/

namespace PhpNames
namespace Builtin

set_option maxRecDepth 2048 in
def names : List String := [
    "stdClass", "Closure", "Generator", "WeakMap", "WeakReference", "Fiber", "Attribute",
    "ReturnTypeWillChange", "AllowDynamicProperties", "SensitiveParameter",
    "SensitiveParameterValue", "Override", "UnitEnum", "BackedEnum", "Traversable", "Iterator",
    "IteratorAggregate", "ArrayAccess", "Countable", "Serializable", "Stringable", "Throwable",
    "Exception", "ErrorException", "Error", "CompileError", "ParseError", "TypeError",
    "ArgumentCountError", "ValueError", "ArithmeticError", "DivisionByZeroError",
    "UnhandledMatchError", "FiberError", "__PHP_Incomplete_Class", "php_user_filter", "Directory",
    "AssertionError", "ArrayObject", "ArrayIterator", "RecursiveArrayIterator", "AppendIterator",
    "CachingIterator", "RecursiveCachingIterator", "CallbackFilterIterator",
    "RecursiveCallbackFilterIterator", "DirectoryIterator", "FilesystemIterator",
    "RecursiveDirectoryIterator", "GlobIterator", "EmptyIterator", "FilterIterator",
    "RecursiveFilterIterator", "ParentIterator", "InfiniteIterator", "IteratorIterator",
    "LimitIterator", "MultipleIterator", "NoRewindIterator", "OuterIterator", "RecursiveIterator",
    "RecursiveIteratorIterator", "RecursiveTreeIterator", "RegexIterator", "RecursiveRegexIterator",
    "SeekableIterator", "SplDoublyLinkedList", "SplQueue", "SplStack", "SplHeap", "SplMinHeap",
    "SplMaxHeap", "SplPriorityQueue", "SplFixedArray", "SplObjectStorage", "SplObserver",
    "SplSubject", "SplFileInfo", "SplFileObject", "SplTempFileObject", "BadFunctionCallException",
    "BadMethodCallException", "DomainException", "InvalidArgumentException", "LengthException",
    "LogicException", "OutOfBoundsException", "OutOfRangeException", "OverflowException",
    "RangeException", "RuntimeException", "UnderflowException", "UnexpectedValueException",
    "DateTime", "DateTimeImmutable", "DateTimeInterface", "DateTimeZone", "DateInterval",
    "DatePeriod", "JsonSerializable", "JsonException", "Reflection", "Reflector",
    "ReflectionException", "ReflectionClass", "ReflectionObject", "ReflectionMethod",
    "ReflectionFunction", "ReflectionFunctionAbstract", "ReflectionParameter", "ReflectionProperty",
    "ReflectionClassConstant", "ReflectionNamedType", "ReflectionUnionType",
    "ReflectionIntersectionType", "ReflectionType", "ReflectionGenerator", "ReflectionExtension",
    "ReflectionZendExtension", "ReflectionReference", "ReflectionAttribute", "ReflectionEnum",
    "ReflectionEnumUnitCase", "ReflectionEnumBackedCase", "ReflectionFiber", "PDO", "PDOStatement",
    "PDOException", "PDORow", "DOMDocument", "DOMElement", "DOMNode", "DOMNodeList", "DOMAttr",
    "DOMText", "DOMComment", "DOMXPath", "DOMException", "DOMImplementation", "DOMDocumentFragment",
    "DOMNamedNodeMap", "DOMCharacterData", "DOMCdataSection", "DOMProcessingInstruction",
    "SimpleXMLElement", "SimpleXMLIterator", "XMLReader", "XMLWriter", "XSLTProcessor",
    "LibXMLError", "Collator", "NumberFormatter", "Locale", "Normalizer", "MessageFormatter",
    "IntlDateFormatter", "IntlCalendar", "IntlGregorianCalendar", "IntlTimeZone",
    "IntlBreakIterator", "IntlException", "ResourceBundle", "Transliterator", "Spoofchecker",
    "mysqli", "mysqli_result", "mysqli_stmt", "mysqli_sql_exception", "SQLite3", "SQLite3Stmt",
    "SQLite3Result", "CurlHandle", "CurlMultiHandle", "CURLFile", "CURLStringFile", "GdImage",
    "HashContext", "finfo", "ZipArchive", "PharData", "Phar", "PharFileInfo", "PharException",
    "SessionHandler", "SessionHandlerInterface", "SessionIdInterface",
    "SessionUpdateTimestampHandlerInterface", "SoapClient", "SoapServer", "SoapFault", "SoapHeader",
    "SoapParam", "SoapVar", "OpenSSLCertificate", "OpenSSLAsymmetricKey", "SodiumException"]

/-- Whether a short name belongs to PHP itself. Case matters. -/
def has (name : Text) : Bool :=
  names.any (·.toList == name)

theorem has_to_list {name : String} : has name.toList = true ↔ name ∈ names := by
  simp [has, String.toList_inj]

end Builtin
end PhpNames
