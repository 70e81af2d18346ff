import SQLiteCustom.Proof.CharacterTokenizer.Partition
import SQLiteCustom.Proof.Closable.ReferenceCount
import SQLiteCustom.Proof.Codec.Digest
import SQLiteCustom.Proof.Codec.Padding
import SQLiteCustom.Proof.Codec.Rekey
import SQLiteCustom.Proof.Connection.Cancellation
import SQLiteCustom.Proof.Connection.OperationLog
import SQLiteCustom.Proof.ConnectionPool.WaitLoop
import SQLiteCustom.Proof.Cursor.Promise
import SQLiteCustom.Proof.Cursor.Window
import SQLiteCustom.Proof.Database.Attach
import SQLiteCustom.Proof.Database.Registration
import SQLiteCustom.Proof.Database.Settings
import SQLiteCustom.Proof.Fts3Tokenizer.Registry
import SQLiteCustom.Proof.HtmlTokenizer.Elements
import SQLiteCustom.Proof.HtmlTokenizer.Exceptions
import SQLiteCustom.Proof.HtmlTokenizer.Ruby
import SQLiteCustom.Proof.HtmlTokenizer.TokenBuffer
import SQLiteCustom.Proof.OpenHelper.WriteAheadLogging
import SQLiteCustom.Proof.PreparedStatements.Lifecycle
import SQLiteCustom.Proof.QueryBuilder.Strict
import SQLiteCustom.Proof.QueryBuilder.Union
import SQLiteCustom.Proof.Regexp.Calls
import SQLiteCustom.Proof.Session.RawRollback
import SQLiteCustom.Proof.Session.Yield
import SQLiteCustom.Proof.Threads.Exclusion
