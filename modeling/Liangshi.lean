import Liangshi.Server.UserRobustness
import Liangshi.Server.SessionStore
import Liangshi.Wire.FrameChannel
import Liangshi.Relay.Exactness
import Liangshi.Live.SingleController
import Liangshi.Relay.Credentials
import Liangshi.Client.Reconnection
import Liangshi.Lesson.ActionTrack
import Liangshi.Live.PageHistory
import Liangshi.Board.NestedData
import Liangshi.Board.PageDecoding
import Liangshi.Live.PlainHistory
import Liangshi.Board.RoundTrip
import Liangshi.Live.BoardRobustness
import Liangshi.Live.SamePlaces
import Liangshi.Live.ShownPage
import Liangshi.Lesson.Stopwatch
import Liangshi.Live.Gestures
import Liangshi.Slides.Display
import Liangshi.Lesson.PlayerSafety
import Liangshi.Lesson.PageCursor
import Liangshi.Board.PaintedPage
import Liangshi.Board.RedoInverse
import Liangshi.Stroke.StrokeReduction
import Liangshi.Stroke.LeastSquares
import Liangshi.Board.HitRect
import Liangshi.Board.SectionReaders
import Liangshi.Lesson.FileEnvelope
import Liangshi.Board.ScriptView
import Liangshi.Client.SharedDialogs
import Liangshi.Board.TestAnswers
import Liangshi.Lesson.Seeking
import Liangshi.Relay.FrameHeader
import Liangshi.Lesson.OpenedLesson
import Liangshi.Live.LateJoiner
import Liangshi.Lesson.SavedRecording
import Liangshi.Live.FollowedBoard
import Liangshi.Stroke.DrawnStroke
import Liangshi.Update.InstalledRelease
import Liangshi.Mobile.PlayableLessons
