/-!
The text of the base module, whose declarations every module sees.
-/

namespace PklAnalysis.Base

def sourceLines : List String :=
  ["/// Builtin classes, type aliases and functions available in every module.",
   "module pkl.base",
   "",
   "/// The top type.",
   "abstract external class Any \x7b",
   "  external function getClass(): Class",
   "  external function toString(): String",
   "  external function `==`(other: Any): Boolean",
   "  external function `!=`(other: Any): Boolean",
   "\x7d",
   "",
   "/// The type of `null`.",
   "external class Null extends Any",
   "",
   "external class Boolean extends Any \x7b",
   "  external function `!`(): Boolean",
   "  external function `&&`(other: Boolean): Boolean",
   "  external function `||`(other: Boolean): Boolean",
   "  external function xor(other: Boolean): Boolean",
   "  external function implies(other: Boolean): Boolean",
   "\x7d",
   "",
   "abstract external class Number extends Any \x7b",
   "  external sign: Number",
   "  external abs: Number",
   "  external isPositive: Boolean",
   "  external function `+`(other: Number): Number",
   "  external function `-`(other: Number): Number",
   "  external function `*`(other: Number): Number",
   "  external function `/`(other: Number): Float",
   "  external function `~/`(other: Number): Int",
   "  external function `%`(other: Number): Number",
   "  external function `**`(other: Number): Number",
   "  external function `<`(other: Number): Boolean",
   "  external function `<=`(other: Number): Boolean",
   "  external function `>`(other: Number): Boolean",
   "  external function `>=`(other: Number): Boolean",
   "  external function toInt(): Int",
   "  external function toFloat(): Float",
   "  external function toString(): String",
   "\x7d",
   "",
   "external class Int extends Number \x7b",
   "  external abs: Int",
   "  external isEven: Boolean",
   "  external isOdd: Boolean",
   "  external function `+`(other: Int): Int",
   "  external function `-`(other: Int): Int",
   "  external function `*`(other: Int): Int",
   "  external function `%`(other: Int): Int",
   "  external function `**`(other: Int): Int",
   "  external function shl(n: Int): Int",
   "  external function shr(n: Int): Int",
   "\x7d",
   "",
   "external class Float extends Number \x7b",
   "  external abs: Float",
   "  external isNaN: Boolean",
   "  external isFinite: Boolean",
   "  external function `+`(other: Number): Float",
   "  external function `-`(other: Number): Float",
   "  external function `*`(other: Number): Float",
   "  external function `%`(other: Number): Float",
   "  external function `**`(other: Number): Float",
   "  external function round(): Float",
   "  external function floor(): Float",
   "  external function ceil(): Float",
   "\x7d",
   "",
   "external class String extends Any \x7b",
   "  external length: Int",
   "  external isEmpty: Boolean",
   "  external isBlank: Boolean",
   "  external chars: List<String>",
   "  external function `+`(other: String): String",
   "  external function `<`(other: String): Boolean",
   "  external function `<=`(other: String): Boolean",
   "  external function `>`(other: String): Boolean",
   "  external function `>=`(other: String): Boolean",
   "  external function `[]`(index: Int): String",
   "  external function contains(pattern: String): Boolean",
   "  external function startsWith(pattern: String): Boolean",
   "  external function endsWith(pattern: String): Boolean",
   "  external function split(pattern: String): List<String>",
   "  external function substring(start: Int, exclusiveEnd: Int): String",
   "  external function toUpperCase(): String",
   "  external function toLowerCase(): String",
   "  external function trim(): String",
   "  external function toInt(): Int",
   "  external function toIntOrNull(): Int?",
   "  external function toFloat(): Float",
   "  external function toBoolean(): Boolean",
   "\x7d",
   "",
   "/// Base class of all annotation types.",
   "abstract external class Annotation extends Any",
   "",
   "/// Marks a declaration as deprecated.",
   "class Deprecated extends Annotation \x7b",
   "  since: String?",
   "  message: String?",
   "  replaceWith: String?",
   "\x7d",
   "",
   "class SourceCode extends Annotation \x7b",
   "  language: String",
   "\x7d",
   "",
   "abstract external class Object extends Any \x7b",
   "  external function getProperty(name: String): unknown",
   "  external function getPropertyOrNull(name: String): unknown",
   "  external function hasProperty(name: String): Boolean",
   "\x7d",
   "",
   "/// An object with no declared schema.",
   "external class Dynamic extends Object \x7b",
   "  external function `[]`(key: Any): unknown",
   "  external function toMap(): Map<Any, unknown>",
   "  external function toList(): List<unknown>",
   "\x7d",
   "",
   "/// An object whose properties are declared by its class.",
   "abstract external class Typed extends Object \x7b",
   "  external function toDynamic(): Dynamic",
   "  external function toMap(): Map<String, unknown>",
   "\x7d",
   "",
   "abstract external class Module extends Typed \x7b",
   "  output: ModuleOutput",
   "  external function relativePathTo(other: Module): List<String>",
   "\x7d",
   "",
   "class ModuleOutput extends Typed \x7b",
   "  text: String",
   "  files: Mapping<String, FileOutput>",
   "\x7d",
   "",
   "class FileOutput extends Typed \x7b",
   "  text: String",
   "\x7d",
   "",
   "external class Listing<out Element> extends Object \x7b",
   "  external length: Int",
   "  external isEmpty: Boolean",
   "  external isDistinct: Boolean",
   "  default: (Int) -> Element",
   "  external function `[]`(index: Int): Element",
   "  external function toList(): List<Element>",
   "  external function toSet(): Set<Element>",
   "  external function join(separator: String): String",
   "\x7d",
   "",
   "external class Mapping<out Key, out Value> extends Object \x7b",
   "  external length: Int",
   "  external isEmpty: Boolean",
   "  external keys: Set<Key>",
   "  default: (Key) -> Value",
   "  external function `[]`(key: Key): Value",
   "  external function containsKey(key: Any): Boolean",
   "  external function getOrNull(key: Any): Value?",
   "  external function toMap(): Map<Key, Value>",
   "\x7d",
   "",
   "abstract external class Collection<out Element> extends Any \x7b",
   "  external length: Int",
   "  external isEmpty: Boolean",
   "  external first: Element",
   "  external firstOrNull: Element?",
   "  external last: Element",
   "  external function `[]`(index: Int): Element",
   "  external function contains(element: Any): Boolean",
   "  external function filter(predicate: (Element) -> Boolean): Collection<Element>",
   "  external function map<Result>(transform: (Element) -> Result): Collection<Result>",
   "  external function fold<Result>(initial: Result, operator: (Result, Element) -> Result): Result",
   "  external function join(separator: String): String",
   "  external function toList(): List<Element>",
   "  external function toSet(): Set<Element>",
   "  external function toListing(): Listing<Element>",
   "\x7d",
   "",
   "external class List<out Element> extends Collection<Element> \x7b",
   "  external function `+`(other: Collection<Element>): List<Element>",
   "  external function filter(predicate: (Element) -> Boolean): List<Element>",
   "  external function map<Result>(transform: (Element) -> Result): List<Result>",
   "  external function getOrNull(index: Int): Element?",
   "  external function reverse(): List<Element>",
   "\x7d",
   "",
   "external class Set<out Element> extends Collection<Element> \x7b",
   "  external function `+`(other: Collection<Element>): Set<Element>",
   "  external function filter(predicate: (Element) -> Boolean): Set<Element>",
   "  external function map<Result>(transform: (Element) -> Result): Set<Result>",
   "\x7d",
   "",
   "external class Map<out Key, out Value> extends Any \x7b",
   "  external length: Int",
   "  external isEmpty: Boolean",
   "  external keys: Set<Key>",
   "  external values: List<Value>",
   "  external function `+`(other: Map<Key, Value>): Map<Key, Value>",
   "  external function `[]`(key: Key): Value",
   "  external function containsKey(key: Any): Boolean",
   "  external function getOrNull(key: Any): Value?",
   "  external function toMapping(): Mapping<Key, Value>",
   "\x7d",
   "",
   "abstract external class Function<out Result> extends Any",
   "",
   "external class Function0<out Result> extends Function<Result> \x7b",
   "  external function apply(): Result",
   "\x7d",
   "",
   "external class Function1<in Param1, out Result> extends Function<Result> \x7b",
   "  external function apply(p1: Param1): Result",
   "\x7d",
   "",
   "external class Function2<in Param1, in Param2, out Result> extends Function<Result> \x7b",
   "  external function apply(p1: Param1, p2: Param2): Result",
   "\x7d",
   "",
   "external class Class<out Type> extends Any \x7b",
   "  external simpleName: String",
   "\x7d",
   "",
   "external class TypeAlias extends Any",
   "",
   "external class Resource extends Any \x7b",
   "  uri: String",
   "  text: String",
   "  base64: String",
   "\x7d",
   "",
   "external class Pair<out First, out Second> extends Any \x7b",
   "  external first: First",
   "  external second: Second",
   "\x7d",
   "",
   "typealias Int8 = Int",
   "typealias Int16 = Int",
   "typealias Int32 = Int",
   "typealias UInt = Int",
   "typealias NonNull = Any",
   "",
   "external const pi: Float",
   "external const NaN: Float",
   "external const Infinity: Float",
   "",
   "external function List<Element>(elements: Element): List<Element>",
   "external function Set<Element>(elements: Element): Set<Element>",
   "external function Map<Key, Value>(keysAndValues: Any): Map<Key, Value>",
   "external function Pair<First, Second>(first: First, second: Second): Pair<First, Second>"]

def source : String :=
  String.join (sourceLines.map (· ++ "\n"))

end PklAnalysis.Base
